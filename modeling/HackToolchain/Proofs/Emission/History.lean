import HackToolchain.Proofs.Emission.Label

/-!
The history of a session over a sink that does not fail. A request is refused and changes nothing, or
it is granted and appends its lines; so the state of a session is what its granted requests add up to.
-/

namespace HackToolchain.Emission

open Session

/-- What can be asked of a session. -/
inductive Request
  | bootstrap
  | arithmetic (operation : Text)
  | access (direction : Direction) (segment : Text) (index : Int)
  | label (name : Text)
  | goto (name : Text)
  | ifGoto (name : Text)
  | function (name : Text) (locals : Int)
  | call (name : Text) (arguments : Int)
  | ret
  | translate (c : Command)
  | unit (name : Text)
  | flush
deriving DecidableEq, Repr

namespace Request

def run : Request → Emit Unit
  | .bootstrap => writeBootstrap
  | .arithmetic operation => writeArithmetic operation
  | .access direction segment index => writeAccess direction segment index
  | .label name => writeLabel name
  | .goto name => writeGoto name
  | .ifGoto name => writeIfGoto name
  | .function name locals => writeFunction name locals
  | .call name arguments => writeCall name arguments
  | .ret => writeReturn
  | .translate c => write c
  | .unit name => modify (setUnit name)
  | .flush => Session.flush

/-- The command whose code is asked for. -/
def command? : Request → Option Command
  | .arithmetic operation => some (.arithmetic operation)
  | .access .push segment index => some (.push segment index)
  | .access .pop segment index => some (.pop segment index)
  | .label name => some (.label name)
  | .goto name => some (.goto name)
  | .ifGoto name => some (.ifGoto name)
  | .function name locals => some (.function name locals)
  | .call name arguments => some (.call name arguments)
  | .ret => some .ret
  | .translate c => some c
  | .bootstrap | .access .neither _ _ | .unit _ | .flush => none

def isComparison (r : Request) : Bool :=
  r.command? == some (.arithmetic "eq") || r.command? == some (.arithmetic "gt")

def isCall (r : Request) : Bool := match r.command? with | some (.call _ _) => true | _ => false

def function? (r : Request) : Option Text := match r.command? with | some (.function name _) => some name | _ => none

/-- The lines a session writes when it grants a request. -/
def lines (r : Request) (s : Session) : List Line :=
  match r with
  | .bootstrap =>
    .comment "bootstrap" :: setStackPointer s.stackBase ++
      .comment (Command.call s.entryPoint 0).render :: callCode s.entryPoint 0 (returnLabel s.entryPoint s.calls)
  | r =>
    match r.command? with
    | none => []
    | some c =>
      match s.naming.code c with
      | .ok code => .comment c.render :: code
      | .error _ => []

/-- The labels made up for a request: those of a comparison, of a call or of the bootstrap's call. -/
def made (r : Request) (s : Session) : List Text :=
  if r.isComparison || r.isCall || r == .bootstrap then declared (r.lines s) else []

/-- The names in force when a request was granted. -/
def after (r : Request) (n : Naming) : Naming :=
  match r with
  | .bootstrap => { n with calls := n.calls + 1 }
  | r => match r.command? with | some c => n.after c | none => n

theorem run_command {r : Request} {c : Command} (asked : r.command? = some c) : r.run = write c := by
  cases r with
  | access direction segment index => cases direction <;> cases asked <;> rfl
  | _ => cases asked <;> rfl

theorem run_neither (segment : Text) (index : Int) (s : Session) :
    ∃ e, (access .neither segment index).run s = .error e s := by
  show ∃ e, writeAccess .neither segment index s = .error e s
  have refused : ∃ e, Naming.code.access .neither segment index = .error e := by
    unfold Naming.code.access
    split
    · exact ⟨_, rfl⟩
    · exact ⟨_, rfl⟩
  obtain ⟨e, refused⟩ := refused
  exact ⟨e, by rw [writeAccess_run, refused]⟩

theorem lines_command {r : Request} {c : Command} {code : List Line} {s : Session} (asked : r.command? = some c)
    (coded : s.naming.code c = .ok code) : r.lines s = .comment c.render :: code := by
  cases r <;> simp_all [lines, command?]

theorem after_command {r : Request} {c : Command} (asked : r.command? = some c) (n : Naming) :
    r.after n = n.after c := by
  cases r <;> simp_all [after, command?]

/-- The session a request leaves behind, granted or not. -/
def next (r : Request) (s : Session) : Session :=
  match r.run s with
  | .ok _ t => t
  | .error _ t => t

/-- A session that wrote lines on top of another one. -/
structure Extends (s : Session) (lines : List Line) (t : Session) : Prop where
  sound : t.sink.failure = none
  text : t.text = s.text ++ written lines
  count : t.lines = s.lines + lines.length
  started : t.started = (s.started || !lines.isEmpty)

theorem Extends.trans {s t u : Session} {xs ys : List Line} (first : Extends s xs t) (second : Extends t ys u) :
    Extends s (xs ++ ys) u := by
  refine ⟨second.sound, ?_, ?_, ?_⟩
  · rw [second.text, first.text, written_append, List.append_assoc]
  · rw [second.count, first.count, List.length_append, Nat.add_assoc]
  · rw [second.started, first.started]
    cases xs <;> cases ys <;> simp

/-- Names and records may have been changed before the lines were written. -/
theorem append_extends {line : Line} {lines : List Line} {s u : Session} (sink : u.sink = s.sink)
    (count : u.lines = s.lines) (sound : (u.append (line :: lines)).sink.failure = none) :
    Extends s (line :: lines) (u.append (line :: lines)) := by
  refine ⟨sound, ?_, ?_, by simp [append]⟩
  · rw [append_text sound, Session.text, sink]
    rfl
  · rw [← count]
    rfl

/-- What a granted request does to a session. -/
structure Granted (r : Request) (s t : Session) : Prop where
  wrote : Extends s (r.lines s) t
  naming : t.naming = r.after s.naming
  unused : r = .bootstrap → s.started = false
  coded : ∀ c, r.command? = some c → ∃ code, s.naming.code c = .ok code

/-- A request that is refused changes nothing, one that is granted does what it should, and one that
is neither finds the sink failed. -/
inductive Outcome (r : Request) (s : Session) : EStateM.Result EmitError Session Unit → Prop
  | refused (e : EmitError) (reason : r = .bootstrap → s.started = true) : Outcome r s (.error e s)
  | granted {t : Session} (granted : Granted r s t) : Outcome r s (.ok () t)
  | failed (e : EmitError) {t : Session} (failed : t.sink.failure.isSome = true) : Outcome r s (.error e t)

/-- A command with code is written unless the sink fails. -/
theorem write_coded {c : Command} {code : List Line} {s : Session} (coded : s.naming.code c = .ok code) :
    (∃ t, write c s = .ok () t ∧ Extends s (.comment c.render :: code) t ∧ t.naming = s.naming.after c) ∨
      ∃ e t, write c s = .error e t ∧ t.sink.failure.isSome = true := by
  rw [write_run, coded]
  dsimp only
  cases done : emit (.comment c.render :: code) ((s.rename (s.naming.after c)).trace c.render) with
  | error e t => exact .inr ⟨e, t, rfl, emit_error done⟩
  | ok _ t =>
    obtain ⟨rfl, sound⟩ := emit_ok.mp done
    exact .inl ⟨_, rfl, append_extends rfl rfl sound, rfl⟩

theorem outcome_command {r : Request} {c : Command} (asked : r.command? = some c) (s : Session) :
    Outcome r s (r.run s) := by
  have other : r ≠ .bootstrap := by
    rintro rfl
    cases asked
  rw [run_command asked]
  cases coded : s.naming.code c with
  | error e =>
    rw [write_run, coded]
    exact .refused e (fun same => (other same).elim)
  | ok code =>
    rcases write_coded coded with ⟨t, wrote, grown, names⟩ | ⟨e, t, stopped, failed⟩
    · rw [wrote]
      refine .granted ⟨?_, ?_, fun same => (other same).elim, ?_⟩
      · rwa [lines_command asked coded]
      · rwa [after_command asked]
      · intro d same
        exact ⟨code, (Option.some.inj (asked.symm.trans same)) ▸ coded⟩
    · rw [stopped]
      exact .failed e failed

theorem outcome_bootstrap (s : Session) : Outcome .bootstrap s (Request.bootstrap.run s) := by
  show Outcome .bootstrap s (writeBootstrap s)
  rw [writeBootstrap_run]
  split
  · rename_i begun
    exact .refused _ (fun _ => begun)
  · rename_i fresh
    cases pointed : emit (.comment "bootstrap" :: setStackPointer s.stackBase) (s.trace "bootstrap") with
    | error e t => exact .failed e (emit_error pointed)
    | ok _ t =>
      obtain ⟨rfl, sound⟩ := emit_ok.mp pointed
      have first : Extends s (.comment "bootstrap" :: setStackPointer s.stackBase)
          ((s.trace "bootstrap").append (.comment "bootstrap" :: setStackPointer s.stackBase)) :=
        append_extends rfl rfl sound
      dsimp only
      rcases @write_coded (.call s.entryPoint 0) (callCode s.entryPoint 0 (returnLabel s.entryPoint s.calls))
          ((s.trace "bootstrap").append (.comment "bootstrap" :: setStackPointer s.stackBase)) rfl with
        ⟨t, wrote, second, names⟩ | ⟨e, t, stopped, failed⟩
      · rw [wrote]
        exact .granted ⟨first.trans second, names, fun _ => by simpa using fresh, by simp [command?]⟩
      · rw [stopped]
        exact .failed e failed

theorem outcome_flush (s : Session) : Outcome .flush s (Request.flush.run s) := by
  show Outcome .flush s (Session.flush s)
  have settled : ∀ {t : Session}, t.text = s.text → t.naming = s.naming → t.lines = s.lines →
      t.started = s.started → Outcome .flush s t.checked := by
    intro t text naming count started
    unfold checked
    split
    · rename_i e known
      exact .failed _ (by simp [known])
    · rename_i sound
      exact .granted ⟨⟨sound, by simp [text, lines, command?, written_nil], by simp [count, lines, command?],
        by simp [started, lines, command?]⟩, naming, by simp, by simp [command?]⟩
  unfold Session.flush
  split
  · exact settled rfl rfl rfl rfl
  · exact settled (Sink.flush_text s.sink) rfl rfl rfl

theorem outcome (r : Request) {s : Session} (sound : s.sink.failure = none) : Outcome r s (r.run s) := by
  cases asked : r.command? with
  | some c => exact outcome_command asked s
  | none =>
    cases r with
    | bootstrap => exact outcome_bootstrap s
    | flush => exact outcome_flush s
    | unit name =>
      exact .granted ⟨⟨sound, by simp [lines, command?, written_nil]; rfl, rfl, by simp [lines, command?]; rfl⟩,
        rfl, by simp, by simp [command?]⟩
    | access direction segment index =>
      cases direction with
      | neither =>
        obtain ⟨e, refused⟩ := run_neither segment index s
        rw [refused]
        exact .refused e (by simp)
      | push => cases asked
      | pop => cases asked
    | _ => cases asked

/-- Behind a failure nothing more is handed to the sink. -/
theorem next_failed {r : Request} {s : Session} (failed : s.sink.failure.isSome = true) :
    (r.next s).sink = s.sink := by
  cases asked : r.command? with
  | some c =>
    rw [next, run_command asked, write_run]
    cases s.naming.code c with
    | error e => rfl
    | ok code =>
      obtain ⟨e, stopped⟩ := @emit_failed (.comment c.render :: code)
        ((s.rename (s.naming.after c)).trace c.render) failed
      simp only [stopped]
      rfl
  | none =>
    cases r with
    | bootstrap =>
      show (match writeBootstrap s with | .ok _ t => t | .error _ t => t).sink = s.sink
      obtain ⟨e, stopped⟩ := @emit_failed (.comment "bootstrap" :: setStackPointer s.stackBase)
        (s.trace "bootstrap") failed
      rw [writeBootstrap_run, stopped]
      cases s.started <;> rfl
    | flush =>
      obtain ⟨e, known⟩ := Option.isSome_iff_exists.mp failed
      simp [next, run, Session.flush, checked, known]
    | unit name => rfl
    | access direction segment index =>
      cases direction with
      | neither =>
        obtain ⟨e, refused⟩ := run_neither segment index s
        simp only [next, refused]
      | push => cases asked
      | pop => cases asked
    | _ => cases asked

theorem next_sound {r : Request} {s : Session} (sound : (r.next s).sink.failure = none) :
    s.sink.failure = none := by
  apply Option.not_isSome_iff_eq_none.mp
  intro failed
  rw [next_failed failed] at sound
  simp [sound] at failed

theorem after_labels (r : Request) (n : Naming) :
    (r.after n).labels = n.labels + if r.isComparison then 1 else 0 := by
  cases asked : r.command? with
  | none => cases r <;> simp_all [after, isComparison, command?]
  | some c =>
    rw [after_command asked, isComparison, asked]
    cases c with
    | arithmetic operation =>
      by_cases compared : operation = "eq" ∨ operation = "gt"
      · rcases compared with rfl | rfl <;> rfl
      · simp_all [Naming.after]
    | _ => simp [Naming.after]

theorem after_calls (r : Request) (n : Naming) :
    (r.after n).calls = n.calls + (if r.isCall then 1 else 0) + if r == .bootstrap then 1 else 0 := by
  cases asked : r.command? with
  | none => cases r <;> simp_all [after, isCall, command?]
  | some c =>
    have other : r ≠ .bootstrap := by
      rintro rfl
      cases asked
    rw [after_command asked, isCall, asked]
    cases c with
    | arithmetic operation =>
      simp only [Naming.after]
      split <;> simp [other]
    | _ => simp [Naming.after, other]

theorem after_function (r : Request) (n : Naming) :
    (r.after n).function = r.function?.getD n.function := by
  cases asked : r.command? with
  | none => cases r <;> simp_all [after, function?, command?]
  | some c =>
    rw [after_command asked, function?, asked]
    cases c with
    | arithmetic operation =>
      simp only [Naming.after]
      split <;> rfl
    | _ => rfl

/-- Labels that carry the next number of their kind, which is given out between two namings. -/
inductive Fresh (n m : Naming) : List Text → Prop
  | none : Fresh n m []
  | comparison (taken : n.labels < m.labels) : Fresh n m [(compareLabels n.labels).1, (compareLabels n.labels).2]
  | call (callee : Text) (taken : n.calls < m.calls) : Fresh n m [returnLabel callee n.calls]

theorem made_fresh {r : Request} {s t : Session} (granted : Granted r s t) :
    Fresh s.naming t.naming (r.made s) := by
  rw [granted.naming]
  unfold made
  cases asked : r.command? with
  | none =>
    by_cases boot : r = .bootstrap
    · subst boot
      exact .call s.entryPoint (Nat.lt_succ_self s.calls)
    · rw [if_neg (by simp [isComparison, isCall, asked, boot])]
      exact .none
  | some c =>
    obtain ⟨code, coded⟩ := granted.coded c asked
    have other : r ≠ .bootstrap := by
      rintro rfl
      cases asked
    rw [lines_command asked coded, after_command asked, isComparison, isCall, asked]
    cases c with
    | arithmetic operation =>
      by_cases compared : operation = "eq" ∨ operation = "gt"
      · rcases compared with rfl | rfl
        · obtain rfl := Except.ok.inj coded
          exact .comparison (Nat.lt_succ_self s.labels)
        · obtain rfl := Except.ok.inj coded
          exact .comparison (Nat.lt_succ_self s.labels)
      · rw [if_neg (by simp_all)]
        exact .none
    | call name arguments =>
      obtain rfl := Naming.call_ok coded
      exact .call name (Nat.lt_succ_self s.calls)
    | _ =>
      rw [if_neg (by simp [other])]
      exact .none

theorem Fresh.nodup {n m : Naming} {made : List Text} (fresh : Fresh n m made) : made.Nodup := by
  cases fresh with
  | none => exact .nil
  | comparison => simpa using compareLabels_apart n.labels n.labels
  | call callee => simp

theorem Fresh.member {n m : Naming} {made : List Text} {t : Text} (fresh : Fresh n m made) (member : t ∈ made) :
    Numbered m t ∧ ¬ Numbered n t := by
  cases fresh with
  | none => cases member
  | comparison taken =>
    simp only [List.mem_cons, List.not_mem_nil, or_false] at member
    rcases member with rfl | rfl
    · exact ⟨.isTrue taken, (compareLabels_new n).1⟩
    · exact ⟨.isEnd taken, (compareLabels_new n).2⟩
  | call callee taken =>
    obtain rfl := List.mem_singleton.mp member
    exact ⟨.isReturn callee taken, returnLabel_new n callee⟩

end Request

namespace Session

/-- The session that requests lead to, one after the other. -/
def served : List Request → Session → Session
  | [], s => s
  | r :: requests, s => served requests (r.next s)

/-- The requests that are granted, each with the session it was made in. -/
def granted : List Request → Session → List (Request × Session)
  | [], _ => []
  | r :: requests, s =>
    match r.run s with
    | .ok _ t => (r, s) :: granted requests t
    | .error _ t => granted requests t

theorem served_sound {requests : List Request} {s : Session} (sound : (served requests s).sink.failure = none) :
    s.sink.failure = none := by
  induction requests generalizing s with
  | nil => exact sound
  | cons r requests ih => exact Request.next_sound (ih sound)

end Session

def linesOf (history : List (Request × Session)) : List Line := history.flatMap fun g => g.1.lines g.2

def madeFor (history : List (Request × Session)) : List Text := history.flatMap fun g => g.1.made g.2

/-- What a session holds is what the requests granted so far add up to. -/
structure Accounted (history : List (Request × Session)) (s : Session) : Prop where
  text : s.text = written (linesOf history)
  count : s.lines = (linesOf history).length
  started : s.started = !(linesOf history).isEmpty
  labels : s.labels = history.countP (·.1.isComparison)
  calls : s.calls = history.countP (·.1.isCall) + history.countP (·.1 == .bootstrap)
  function : s.function = (history.filterMap (·.1.function?)).getLast?.getD []
  numbered : ∀ t ∈ madeFor history, Numbered s.naming t
  distinct : (madeFor history).Nodup
  first : ∀ {front back t}, history = front ++ (.bootstrap, t) :: back → linesOf front = []

theorem linesOf_append (front back : List (Request × Session)) :
    linesOf (front ++ back) = linesOf front ++ linesOf back := by
  simp [linesOf]

theorem madeFor_append (front back : List (Request × Session)) :
    madeFor (front ++ back) = madeFor front ++ madeFor back := by
  simp [madeFor]

theorem Accounted.start (stackBase : Int) (entryPoint : Text) (device : Option Device) :
    Accounted [] (Session.start stackBase entryPoint device) where
  text := written_nil.symm
  count := rfl
  started := rfl
  labels := rfl
  calls := rfl
  function := rfl
  numbered := by simp [madeFor]
  distinct := by simp [madeFor]
  first := by simp

theorem Accounted.step {history : List (Request × Session)} {r : Request} {s t : Session}
    (accounted : Accounted history s) (granted : r.Granted s t) : Accounted (history ++ [(r, s)]) t := by
  have lines : linesOf (history ++ [(r, s)]) = linesOf history ++ r.lines s := by
    rw [linesOf_append]
    simp [linesOf]
  have made : madeFor (history ++ [(r, s)]) = madeFor history ++ r.made s := by
    rw [madeFor_append]
    simp [madeFor]
  have fresh := Request.made_fresh granted
  have labels : t.labels = s.labels + if r.isComparison then 1 else 0 :=
    (congrArg Naming.labels granted.naming).trans (r.after_labels s.naming)
  have calls : t.calls = s.calls + (if r.isCall then 1 else 0) + if r == .bootstrap then 1 else 0 :=
    (congrArg Naming.calls granted.naming).trans (r.after_calls s.naming)
  have function : t.function = r.function?.getD s.function :=
    (congrArg Naming.function granted.naming).trans (r.after_function s.naming)
  refine ⟨?_, ?_, ?_, ?_, ?_, ?_, ?_, ?_, ?_⟩
  · rw [granted.wrote.text, accounted.text, lines, written_append]
  · rw [granted.wrote.count, accounted.count, lines, List.length_append]
  · rw [granted.wrote.started, accounted.started, lines]
    cases linesOf history <;> simp
  · rw [labels, accounted.labels, List.countP_append]
    simp [List.countP_cons]
  · rw [calls, accounted.calls, List.countP_append, List.countP_append]
    simp only [List.countP_cons, List.countP_nil]
    omega
  · rw [function, accounted.function, List.filterMap_append]
    cases known : r.function? <;> simp [known]
  · intro l member
    rw [made] at member
    rcases List.mem_append.mp member with old | new
    · exact (accounted.numbered l old).mono (by show s.labels ≤ t.labels; omega) (by show s.calls ≤ t.calls; omega)
    · exact (fresh.member new).1
  · rw [made, List.nodup_append]
    refine ⟨accounted.distinct, fresh.nodup, ?_⟩
    rintro l old _ new rfl
    exact (fresh.member new).2 (accounted.numbered l old)
  · intro front back u split
    -- The bootstrap is the request at hand or one of those before it.
    rcases List.eq_nil_or_concat back with rfl | ⟨back, last, rfl⟩
    · obtain ⟨rfl, same⟩ := List.append_inj' split rfl
      have boot : r = .bootstrap := congrArg Prod.fst (List.singleton_inj.mp same)
      have silent := accounted.started.symm.trans (granted.unused boot)
      simpa using silent
    · rw [List.concat_eq_append, ← List.cons_append, ← List.append_assoc] at split
      exact accounted.first (List.append_inj' split rfl).1

/-- A run of requests keeps the account: by induction over the requests, each of which is refused or
granted as long as the sink has not failed at the end. -/
theorem Accounted.run {history : List (Request × Session)} {requests : List Request} {s : Session}
    (accounted : Accounted history s) (sound : (served requests s).sink.failure = none) :
    Accounted (history ++ Session.granted requests s) (served requests s) := by
  induction requests generalizing history s with
  | nil => simpa [Session.granted, served] using accounted
  | cons r requests ih =>
    have outcome := r.outcome (served_sound sound)
    have after : (r.next s).sink.failure = none := served_sound sound
    simp only [served, Session.granted, Request.next] at sound after ⊢
    generalize r.run s = result at outcome sound after ⊢
    cases outcome with
    | refused e => exact ih accounted sound
    | granted granted =>
      rw [List.append_cons]
      exact ih (accounted.step granted) sound
    | failed e failed =>
      rw [after] at failed
      cases failed

theorem Accounted.bootstrap_once {history : List (Request × Session)} {s : Session}
    (accounted : Accounted history s) {front back : List (Request × Session)} {t : Session}
    (split : history = front ++ (.bootstrap, t) :: back) : ∀ g ∈ back, g.1 ≠ .bootstrap := by
  rintro ⟨r, u⟩ member same
  obtain rfl : r = .bootstrap := same
  obtain ⟨middle, rest, rfl⟩ := List.append_of_mem member
  have silent := @Accounted.first _ _ accounted (front ++ (.bootstrap, t) :: middle) rest u (by simp [split])
  rw [linesOf_append] at silent
  simp [linesOf, Request.lines] at silent

theorem Accounted.bootstrap_iff {history : List (Request × Session)} {s : Session}
    (accounted : Accounted history s) (sound : (Request.bootstrap.next s).sink.failure = none) :
    (∃ t, Request.bootstrap.run s = .ok () t) ↔ s.lines = 0 := by
  have fresh : s.started = false ↔ s.lines = 0 := by
    rw [accounted.started, accounted.count]
    simp
  have outcome := Request.outcome_bootstrap s
  unfold Request.next at sound
  rw [← fresh]
  generalize Request.bootstrap.run s = result at outcome sound ⊢
  cases outcome with
  | refused e reason => simp [reason rfl]
  | granted granted => simp [granted.unused rfl]
  | failed e failed =>
    dsimp only at sound
    rw [sound] at failed
    cases failed

theorem served_append (before rest : List Request) (s : Session) :
    served (before ++ rest) s = served rest (served before s) := by
  induction before generalizing s with
  | nil => rfl
  | cons r before ih => exact ih (r.next s)

/-- In every history of a session the counters are the numbers of comparisons and of calls that were
granted, the scope is the last function that was, and the text is made of their lines in order. A
bootstrap is granted exactly when nothing was written yet, so at most once and in front of all other
lines. No label made up for a comparison or a call is made up twice. -/
theorem session_history (stackBase : Int) (entryPoint : Text) (device : Option Device) (requests : List Request)
    (sound : (served requests (Session.start stackBase entryPoint device)).sink.failure = none) :
    let start := Session.start stackBase entryPoint device
    let s := served requests start
    let history := Session.granted requests start
    s.labels = history.countP (·.1.isComparison) ∧
      s.calls = history.countP (·.1.isCall) + history.countP (·.1 == .bootstrap) ∧
      s.function = (history.filterMap (·.1.function?)).getLast?.getD [] ∧
      s.text = written (linesOf history) ∧
      s.lines = (linesOf history).length ∧
      (∀ before after, requests = before ++ .bootstrap :: after →
        ((∃ t, Request.bootstrap.run (served before start) = .ok () t) ↔ (served before start).lines = 0)) ∧
      (∀ front t back, history = front ++ (.bootstrap, t) :: back →
        linesOf front = [] ∧ ∀ g ∈ back, g.1 ≠ .bootstrap) ∧
      (madeFor history).Nodup := by
  intro start s history
  have begun : Accounted [] start := .start stackBase entryPoint device
  have accounted : Accounted history s := begun.run sound
  refine ⟨accounted.labels, accounted.calls, accounted.function, accounted.text, accounted.count, ?_, ?_,
    accounted.distinct⟩
  · rintro before after rfl
    rw [served_append] at sound
    have earlier : Accounted _ (served before start) := begun.run (served_sound sound)
    exact earlier.bootstrap_iff (served_sound sound)
  · intro front t back split
    exact ⟨accounted.first split, accounted.bootstrap_once split⟩

/-- A callee may look like a return label itself. -/
theorem session_history_nested :
    let requests : List Request := [.arithmetic "neg", .call "f$ret.0" 0, .bootstrap]
    (served requests (Session.start 0 [] none)).sink.failure = none ∧
      (madeFor (Session.granted requests (Session.start 0 [] none))).Nodup := by
  intro requests
  have sound : (served requests (Session.start 0 [] none)).sink.failure = none := by decide +kernel
  obtain ⟨-, -, -, -, -, -, -, distinct⟩ := session_history 0 [] none requests sound
  exact ⟨sound, distinct⟩

end HackToolchain.Emission
