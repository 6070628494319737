import SmallLisp.Proofs.Heredity
import SmallLisp.Proofs.LibraryForms

/-!
# Transformers from definition to call

`(defmacro name [params] body ...)` goes a long way before it does anything: the library makes a
form of it, which is checked and evaluated, a function is made, and the operation in the form makes
the function a transformer. A call of the transformer goes a long way again. This file says what
both come to.

* `Engine.eval_transformer_call`: the call of any transformer.
* `Engine.eval_definition`: the definition binds a new transformer on the root, after one line in
  the log.
* `Engine.FollowsProtocol`: what a call of a transformer comes to. With a wrong number of operands
  it fails and does nothing. With the right number it evaluates a `let` of the call, its scope and
  the operands, quoted, where the transformer was *defined*, and then checks and evaluates the
  result where the transformer was *called*.
* **`Engine.definition_followsProtocol`**: the definition of a transformer, and every later call.

The log is the only thing that tells the two sides apart. On a machine that writes no log, nothing
does.
-/

namespace SmallLisp

namespace Expander

/-- A definition of a transformer. -/
def definition (name : String) (params body : List Value) : Value :=
  .list (.symbol "defmacro" :: .symbol name :: .vector params :: body)

/-- The parameters of the function behind it. -/
def targetParams (params : List Value) : List Value :=
  .symbol "&form" :: .symbol "&env" :: params

/-- What the library makes of the definition. -/
def expansion (name : String) (params body : List Value) : Value :=
  defForm name (.list [transformerMaker, fnForm (targetParams params) body])

theorem expand_definition (name : String) (params : List Value) {body : List Value}
    (hbody : body ≠ []) :
    defineTransformer.expand (.symbol name :: .vector params :: body) =
      .ok (expansion name params body) := by
  obtain ⟨form, forms, rfl⟩ := List.exists_cons_of_ne_nil hbody
  rfl

end Expander

/-! ## The check of the expansion -/

namespace Validation

variable {bound : String → Bool} {params body : List Value}

/-- A function that passes the check is in shape. -/
theorem fnForm_check_of_check (h : check bound (Expander.fnForm params body) = .ok ()) :
    SpecialForm.fnForm.check (.vector params :: body) = .ok () := by
  cases hcheck : SpecialForm.fnForm.check (.vector params :: body) with
  | ok => rfl
  | error reason =>
    have hname : SpecialForm.ofName? "fn" = some .fnForm := SpecialForm.ofName?_name .fnForm
    rw [check, Expander.fnForm, walk_shape [] hname hcheck] at h
    cases h

/-- The expansion of a definition passes the check if the function in it does. -/
theorem check_expansion (name : String)
    (h : check bound (Expander.fnForm (Expander.targetParams params) body) = .ok ()) :
    check bound (Expander.expansion name params body) = .ok () := by
  have hname : SpecialForm.ofName? "def" = some .defForm := SpecialForm.ofName?_name .defForm
  have hwalk : walk bound (Expander.expansion name params body) [] =
      walk bound (Expander.fnForm (Expander.targetParams params) body) [] := by
    rw [Expander.expansion, Expander.defForm, walk_special [] hname rfl]
    show walkAll bound [.list [Expander.transformerMaker, _]] [] = _
    rw [walkAll_singleton, walk_call rfl (by simp [Expander.transformerMaker])]
    exact walkAll_singleton _ []
  rw [check, hwalk]
  exact h

/-- A call of a transformer passes the check whatever its operands are. -/
theorem check_transformer_call {name : String} {operands : List Value}
    (hname : SpecialForm.ofName? name = none) (hbound : bound name = true) :
    check bound (.list (.symbol name :: operands)) = .ok () := by
  rw [check, walk, hname]
  dsimp only
  rw [hbound, Bool.or_true, if_pos rfl]
  rfl

end Validation

namespace Engine

variable {m : Machine} {frame home : FrameId} {name : String} {params body operands : List Value}

/-! ## The log -/

theorem logExpansion_of_quiet (hquiet : m.verbose = false) (call expansion : Value) :
    logExpansion call expansion m = .ok () m := by
  show (if m.verbose then _ else pure () : Run Unit) m = .ok () m
  rw [hquiet]
  rfl

theorem print_cases (style : Style) (value : Value) (m : Machine) :
    (∃ text, Run.print style value m = .ok text m) ∨
      ∃ stop, Run.print style value m = .error stop m := by
  have hstore : Run.store m = .ok m.store m := rfl
  rw [Run.print, Run.bind_ok hstore]
  cases m.store.print style value with
  | ok text => exact .inl ⟨text, rfl⟩
  | error reason => cases reason <;> exact .inr ⟨_, rfl⟩

/-- Writing a line changes the log and nothing else. It fails if the line has no text. -/
theorem logExpansion_cases (call expansion : Value) (m : Machine) :
    (∃ log, logExpansion call expansion m = .ok () { m with log := log }) ∨
      ∃ stop, logExpansion call expansion m = .error stop m := by
  by_cases hverbose : m.verbose = true
  · have hrun : logExpansion call expansion m = (do
        let before ← Run.print .inspect call
        let after ← Run.print .inspect expansion
        Run.logLine s!"Expanded {before} -> {after}") m := by
      show (if m.verbose then _ else pure () : Run Unit) m = _
      rw [hverbose]
      rfl
    rw [hrun]
    obtain ⟨before, hbefore⟩ | ⟨stop, hstop⟩ := print_cases .inspect call m
    · rw [Run.bind_ok hbefore]
      obtain ⟨after, hafter⟩ | ⟨stop, hstop⟩ := print_cases .inspect expansion m
      · rw [Run.bind_ok hafter]
        exact .inl ⟨_, rfl⟩
      · exact .inr ⟨stop, Run.bind_error hstop⟩
    · exact .inr ⟨stop, Run.bind_error hstop⟩
  · exact .inl ⟨m.log, logExpansion_of_quiet (Bool.eq_false_of_not_eq_true hverbose) call expansion⟩

/-! ## Calls of transformers -/

/-- A form that passes the check is evaluated. -/
theorem evaluate_of_check (engine : Engine) {form : Value}
    (h : Validation.check (m.store.bindsTransformer frame) form = .ok ()) :
    engine.evaluate form frame m = engine.eval form frame m := by
  have hvalidate : validate form frame m = .ok () m := by
    show Run.ofExcept (Validation.check (m.store.bindsTransformer frame) form) m = _
    rw [h]
    rfl
  exact Run.bind_ok hvalidate

/-- The check has nothing to say about the call of a transformer. -/
theorem evaluate_transformer_call (engine : Engine) {serial : Nat} {target : Value}
    (hname : SpecialForm.ofName? name = none)
    (hlookup : m.store.lookup? frame name = some (.transformer serial target)) :
    engine.evaluate (.list (.symbol name :: operands)) frame m =
      engine.eval (.list (.symbol name :: operands)) frame m := by
  refine evaluate_of_check engine (Validation.check_transformer_call hname ?_)
  rw [Store.bindsTransformer, hlookup]

/-- The call of a transformer is expanded, and the expansion is checked and evaluated. -/
theorem eval_transformer_call {serial : Nat} {target : Value} {depth : Nat}
    (hname : SpecialForm.ofName? name = none)
    (hlookup : m.store.lookup? frame name = some (.transformer serial target)) :
    (ofDepth (depth + 2)).eval (.list (.symbol name :: operands)) frame m = (do
      let expansion ←
        (ofDepth (depth + 1)).expandWith target (.list (.symbol name :: operands)) frame
      (ofDepth (depth + 1)).evaluate expansion frame) m := by
  have hhead : SpecialForm.ofHead? (.symbol name) = none := hname
  have hcallee : (ofDepth (depth + 1)).eval (.symbol name) frame m =
      .ok (.transformer serial target) m := by
    have hstore : Run.store m = .ok m.store m := rfl
    show Run.lookup frame name m = _
    rw [Run.lookup, Run.bind_ok hstore, hlookup]
    rfl
  show (ofDepth (depth + 1)).evalWith (.list (.symbol name :: operands)) frame m = _
  simp only [evalWith, hhead]
  rw [Run.bind_ok hcallee]
  rfl

/-! ## Definitions -/

/-- Makes a function of a frame a transformer, and binds it on the root around the frame. -/
def bindTransformer (home : FrameId) (name : String) (params body : List Value) : Run Value := do
  let serial ← Run.nextSerial
  let transformer ←
    makeTransformer [.function serial (.vector (Expander.targetParams params)) body home]
  Run.defineGlobal home name transformer
  logDefinition name
  return transformer

/-- The transformer that this makes if the function has that serial number. -/
def boundTransformer (serial : Nat) (home : FrameId) (params body : List Value) : Value :=
  .transformer (serial + 1)
    (.function serial (.vector (Expander.targetParams params)) body home)

theorem bindTransformer_of_quiet (hquiet : m.verbose = false) :
    bindTransformer home name params body m =
      .ok (boundTransformer m.serial home params body)
        { m with
          store := m.store.assign (m.store.root home) name
            (boundTransformer m.serial home params body)
          serial := m.serial + 2 } := by
  obtain ⟨store, serial, calls, log, verbose⟩ := m
  cases hquiet
  rfl

/-- The library takes the definition apart, and one line is written to the log. -/
theorem expandWith_definition (number depth : Nat) (hbody : body ≠ []) :
    (ofDepth (depth + 1)).expandWith (.host number (.expander .defineTransformer))
        (Expander.definition name params body) home = (do
      logExpansion (Expander.definition name params body) (Expander.expansion name params body)
      return Expander.expansion name params body) := by
  have happly : ∀ call scope, (ofDepth (depth + 1)).apply
      (.host number (.expander .defineTransformer))
      (call :: scope :: .symbol name :: .vector params :: body) =
        pure (Expander.expansion name params body) := by
    intro call scope
    show Run.ofExcept _ = _
    rw [Expander.expand_definition name params hbody]
    rfl
  simp only [expandWith, Expander.definition, Value.patterns?, Value.sequence?,
    Option.getD_some, List.tail_cons, happly, pure_bind]

/-- The expansion makes the function first, then the transformer, and binds it. -/
theorem eval_expansion (depth : Nat)
    (hshape : SpecialForm.fnForm.check (.vector (Expander.targetParams params) :: body) = .ok ()) :
    (ofDepth (depth + 3)).eval (Expander.expansion name params body) home =
      bindTransformer home name params body := by
  have hfn : (ofDepth (depth + 1)).eval (Expander.fnForm (Expander.targetParams params) body)
      home = (do
        let serial ← Run.nextSerial
        return .function serial (.vector (Expander.targetParams params)) body home) := by
    show (ofDepth depth).evalWith (Expander.fnForm (Expander.targetParams params) body) home = _
    rw [evalWith_fn, evalSpecial_fn _ _ hshape]
  show (ofDepth (depth + 2)).evalWith (Expander.expansion name params body) home = _
  rw [Expander.expansion, evalWith_def, evalSpecial_def, eval_maker, hfn]
  simp only [bind_assoc, pure_bind]
  rfl

/-- A definition binds a new transformer on the root, after one line in the log. -/
theorem eval_definition {serial number : Nat}
    (hmaker : m.store.lookup? home "defmacro" =
      some (.transformer serial (.host number (.expander .defineTransformer))))
    (hcheck : Validation.check (m.store.bindsTransformer home)
      (Expander.fnForm (Expander.targetParams params) body) = .ok ()) (depth : Nat) :
    (ofDepth (depth + 4)).eval (Expander.definition name params body) home m = (do
      logExpansion (Expander.definition name params body) (Expander.expansion name params body)
      bindTransformer home name params body) m := by
  have hshape := Validation.fnForm_check_of_check hcheck
  have hbody : body ≠ [] := by
    obtain ⟨params', body', hoperands, hbody', -⟩ := SpecialForm.fnForm_shape hshape
    rw [(List.cons.inj hoperands).2]
    exact hbody'
  have hname : SpecialForm.ofName? "defmacro" = none := by decide
  rw [Expander.definition, eval_transformer_call hname hmaker, ← Expander.definition,
    expandWith_definition number (depth + 2) hbody]
  simp only [bind_assoc, pure_bind]
  -- the line in the log leaves the scope as it is, so the check goes as before it
  obtain ⟨log, hlog⟩ | ⟨stop, hstop⟩ := logExpansion_cases (Expander.definition name params body)
    (Expander.expansion name params body) m
  · rw [Run.bind_ok hlog, Run.bind_ok hlog, ← eval_expansion depth hshape]
    exact evaluate_of_check _ (Validation.check_expansion name hcheck)
  · rw [Run.bind_error hstop, Run.bind_error hstop]

/-- What is bound on a root is what the name means there. -/
theorem lookup?_assign_root {value : Value} (hhome : home < m.store.size) :
    (m.store.assign (m.store.root home) name value).lookup? (m.store.root home) name =
      some value := by
  obtain ⟨frame, hframe, houter⟩ := Store.isRoot_iff.1 (Store.isRoot_root hhome)
  have hframe' : (m.store.assign (m.store.root home) name value).frame? (m.store.root home) =
      some (frame.set name value) := by
    rw [Store.frame?_assign, if_pos rfl, hframe]
    rfl
  rw [Store.lookup?_of_isRoot (Store.isRoot_iff.2 ⟨_, hframe', houter⟩), Store.local?, hframe']
  simp

/-! ## Calls -/

/-- The `let` that a call of a transformer stands for: the call, its scope and its operands are the
right-hand sides, quoted. -/
def callLet (params body : List Value) (call : Value) (frame : FrameId) (operands : List Value) :
    Value :=
  .list (.symbol "let" ::
    .vector (interleave (Expander.targetParams params)
      ((call :: .environment frame :: operands).map quoted)) :: body)

/-- **What the calls of a transformer come to**, in every later state of the machine, under every
name that means the transformer there, and for all operands. -/
structure FollowsProtocol (transformer : Value) (home : FrameId) (params body : List Value) :
    Prop where
  /-- As a program of its own, a call is evaluated like a part of one: the check passes over it. -/
  unchecked : ∀ {m : Machine} {frame : FrameId} {name : String} {operands : List Value},
    SpecialForm.ofName? name = none → m.store.lookup? frame name = some transformer →
    ∀ engine : Engine, engine.evaluate (.list (.symbol name :: operands)) frame m =
      engine.eval (.list (.symbol name :: operands)) frame m
  /-- With a wrong number of operands the call fails and does nothing. -/
  arity : ∀ {m : Machine} {frame : FrameId} {name : String} {operands : List Value},
    SpecialForm.ofName? name = none → m.store.lookup? frame name = some transformer →
    operands.length ≠ params.length → ∀ depth,
      (ofDepth (depth + 2)).eval (.list (.symbol name :: operands)) frame m =
        .error (.fault (.transformerArity (.symbol name) params.length operands.length)) m
  /-- With the right number, the `let` is evaluated where the transformer was defined, one line is
  written to the log, and the result is checked and evaluated where the call stands. -/
  expands : ∀ {m : Machine} {frame : FrameId} {name : String} {operands : List Value},
    SpecialForm.ofName? name = none → m.store.lookup? frame name = some transformer →
    operands.length = params.length → ∀ depth,
      let call := .list (.symbol name :: operands)
      (ofDepth (depth + 3)).eval call frame m = (do
        let expansion ← (ofDepth (depth + 2)).eval (callLet params body call frame operands) home
        logExpansion call expansion
        (ofDepth (depth + 2)).evaluate expansion frame) m
  /-- The same on a machine that writes no log. -/
  quiet : ∀ {m : Machine} {frame : FrameId} {name : String} {operands : List Value},
    m.verbose = false →
    SpecialForm.ofName? name = none → m.store.lookup? frame name = some transformer →
    operands.length = params.length → ∀ depth,
      let call := .list (.symbol name :: operands)
      (ofDepth (depth + 3)).eval call frame m = (do
        let expansion ← (ofDepth (depth + 2)).eval (callLet params body call frame operands) home
        (ofDepth (depth + 2)).evaluate expansion frame) m

variable {serial : Nat} {head : Value}

/-- A function behind a transformer counts the operands only. -/
theorem expandWith_of_ne (engine : Engine) (h : operands.length ≠ params.length) :
    engine.expandWith (.function serial (.vector (Expander.targetParams params)) body home)
        (.list (head :: operands)) frame m =
      .error (.fault (.transformerArity head params.length operands.length)) m := by
  have hne : (Expander.targetParams params).length ≠ operands.length + 2 := by
    simp only [Expander.targetParams, List.length_cons]
    omega
  have hrequired : ((Expander.targetParams params).length : Int) - 2 = params.length := by
    simp only [Expander.targetParams, List.length_cons]
    omega
  simp only [expandWith, Value.patterns?, Value.elements?_vector, Value.sequence?,
    Option.getD_some, List.tail_cons, if_pos hne, hrequired]
  rfl

/-- A function behind a transformer is applied as the `let` is evaluated. -/
theorem expandWith_of_eq (depth : Nat) (h : operands.length = params.length) :
    let call := .list (head :: operands)
    (ofDepth (depth + 2)).expandWith
        (.function serial (.vector (Expander.targetParams params)) body home) call frame = (do
      let expansion ← (ofDepth (depth + 2)).eval (callLet params body call frame operands) home
      logExpansion call expansion
      return expansion) := by
  intro call
  have hlength : (call :: .environment frame :: operands).length =
      (Expander.targetParams params).length := by
    simp only [Expander.targetParams, List.length_cons, h]
  have hcount : ¬ (Expander.targetParams params).length ≠ operands.length + 2 := by
    rw [← hlength, List.length_cons, List.length_cons]
    exact fun hne => hne rfl
  have happly : (ofDepth (depth + 2)).apply
      (.function serial (.vector (Expander.targetParams params)) body home)
      (call :: .environment frame :: operands) =
        (ofDepth (depth + 2)).eval (callLet params body call frame operands) home := by
    show (ofDepth (depth + 1)).applyFunction _ (Expander.targetParams params) body home _ =
      (ofDepth (depth + 1)).evalWith (callLet params body call frame operands) home
    rw [applyFunction_eq_let hlength, callLet, evalWith_let]
  simp only [expandWith, Value.patterns?, Value.elements?_vector, Value.sequence?,
    Option.getD_some, List.tail_cons, if_neg hcount, call, happly]

/-- Without a log, what is behind a line of the log follows at once. -/
theorem bind_logExpansion_of_quiet (hquiet : m.verbose = false) (depth : Nat) (form call : Value)
    (next : Value → Run Value) :
    ((ofDepth depth).eval form home >>= fun expansion =>
        logExpansion call expansion >>= fun _ => next expansion) m =
      ((ofDepth depth).eval form home >>= next) m := by
  cases hrun : (ofDepth depth).eval form home m with
  | error stop m' => rw [Run.bind_error hrun, Run.bind_error hrun]
  | ok expansion m' =>
    have hverbose := Heredity.verbose_after_eval depth form home m
    rw [Run.after, hrun, hquiet] at hverbose
    rw [Run.bind_ok hrun, Run.bind_ok hrun]
    exact Run.bind_ok (logExpansion_of_quiet hverbose call expansion)

/-- The expansion comes from where the transformer was defined, and goes to where it was called. -/
theorem eval_call_of_eq (hname : SpecialForm.ofName? name = none)
    (hlookup : m.store.lookup? frame name = some (boundTransformer serial home params body))
    (hlength : operands.length = params.length) (depth : Nat) :
    let call := .list (.symbol name :: operands)
    (ofDepth (depth + 3)).eval call frame m = (do
      let expansion ← (ofDepth (depth + 2)).eval (callLet params body call frame operands) home
      logExpansion call expansion
      (ofDepth (depth + 2)).evaluate expansion frame) m := by
  intro call
  rw [eval_transformer_call hname hlookup, expandWith_of_eq depth hlength]
  simp only [bind_assoc, pure_bind]
  rfl

theorem followsProtocol_boundTransformer (serial : Nat) (home : FrameId)
    (params body : List Value) :
    FollowsProtocol (boundTransformer serial home params body) home params body where
  unchecked hname hlookup engine := evaluate_transformer_call engine hname hlookup
  arity := by
    intro m frame name operands hname hlookup hlength depth
    rw [eval_transformer_call hname hlookup]
    exact Run.bind_error (expandWith_of_ne _ hlength)
  expands := eval_call_of_eq
  quiet := by
    intro m frame name operands hquiet hname hlookup hlength depth call
    rw [eval_call_of_eq hname hlookup hlength depth]
    exact bind_logExpansion_of_quiet hquiet _ _ _ _

/-- **A transformer from its definition to its calls.** Let `defmacro` mean the transformer of the
library in a frame, whatever all other names mean there, and let a function of the call, the scope
and the parameters pass the check. Then the definition binds a new transformer on the root around
the frame, and from then on all calls follow the protocol. -/
theorem definition_followsProtocol (name : String) {serial number : Nat}
    (hmaker : m.store.lookup? home "defmacro" =
      some (.transformer serial (.host number (.expander .defineTransformer))))
    (hcheck : Validation.check (m.store.bindsTransformer home)
      (Expander.fnForm (Expander.targetParams params) body) = .ok ()) :
    let definition := Expander.definition name params body
    let transformer := boundTransformer m.serial home params body
    let store := m.store.assign (m.store.root home) name transformer
    (∀ engine : Engine, engine.evaluate definition home m = engine.eval definition home m) ∧
    (∀ depth, (ofDepth (depth + 4)).eval definition home m = (do
      logExpansion definition (Expander.expansion name params body)
      bindTransformer home name params body) m) ∧
    (m.verbose = false → ∀ depth, (ofDepth (depth + 4)).eval definition home m =
      .ok transformer { m with store := store, serial := m.serial + 2 }) ∧
    store.lookup? (m.store.root home) name = some transformer ∧
    FollowsProtocol transformer home params body := by
  intro definition transformer store
  have hdefines : ∀ depth, (ofDepth (depth + 4)).eval definition home m = (do
      logExpansion definition (Expander.expansion name params body)
      bindTransformer home name params body) m := eval_definition hmaker hcheck
  refine ⟨fun engine => evaluate_transformer_call engine (by decide) hmaker, hdefines, ?_, ?_,
    followsProtocol_boundTransformer m.serial home params body⟩
  · intro hquiet depth
    rw [hdefines, Run.bind_ok (logExpansion_of_quiet hquiet _ _)]
    exact bindTransformer_of_quiet hquiet
  · exact lookup?_assign_root (Store.lt_size_of_lookup? hmaker)

/-- Where `macro` and `fn` mean something else, a transformer is defined, then called without its
operand, and then with it. -/
theorem definition_followsProtocol_twice :
    let store := (((Store.empty.push none).extend 0 "defmacro"
      (.transformer 2 (.host 1 (.expander .defineTransformer)))).extend 0 "macro" .nil).extend 0
      "fn" (.int 1)
    let m : Machine := { Machine.fresh false with store := store, serial := 3 }
    let params := [.symbol "a"]
    let body := [.list [.symbol "if", .symbol "a", .symbol "&env", .symbol "&form"]]
    ∃ transformer m',
      (ofDepth 4).eval (Expander.definition "twice" params body) 0 m = .ok transformer m' ∧
      m'.store.lookup? 0 "twice" = some transformer ∧
      (ofDepth 2).eval (.list [.symbol "twice"]) 0 m' =
        .error (.fault (.transformerArity (.symbol "twice") 1 0)) m' ∧
      let call := .list [.symbol "twice", .int 1]
      (ofDepth 3).eval call 0 m' = (do
        let expansion ← (ofDepth 2).eval (callLet params body call 0 [.int 1]) 0
        (ofDepth 2).evaluate expansion 0) m' := by
  intro store m params body
  have hmaker : m.store.lookup? 0 "defmacro" =
      some (.transformer 2 (.host 1 (.expander .defineTransformer))) := rfl
  have hcheck : Validation.check (m.store.bindsTransformer 0)
      (Expander.fnForm (Expander.targetParams params) body) = .ok () := by rfl
  have hroot : m.store.root 0 = 0 := rfl
  obtain ⟨-, -, hdefined, hmeans, hprotocol⟩ :=
    definition_followsProtocol "twice" hmaker hcheck
  rw [hroot] at hdefined hmeans
  refine ⟨_, _, hdefined rfl 0, hmeans, ?_, ?_⟩
  · apply hprotocol.arity
    · decide
    · exact hmeans
    · decide
  · apply hprotocol.quiet
    · rfl
    · decide
    · exact hmeans
    · rfl

end Engine

end SmallLisp
