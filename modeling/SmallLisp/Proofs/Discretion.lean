import SmallLisp.Expansion
import SmallLisp.Proofs.Printing

/-!
# Values that do not tell on a name

What must a session be like so that it cannot matter what a certain name is bound to? No code in it
may ask for the name. But there is another way to find out: a program that holds a scope can print
it, and a program that can make transformers can have a scope handed to it.

* `Value.oblivious`: nothing in the value mentions certain names, and its transformers are those of
  the library or have been made by `defmacro`.
* `Value.Sealed`: the capability is neither a scope nor the operation that makes transformers.
* `Value.Discreet`: the value is oblivious, and all its capabilities are sealed.
* `Store.SameBut`: two stores differ at most in one binding of one frame.
-/

namespace SmallLisp

namespace Value

/-- The function stands behind a transformer of the library. -/
def isLibrary : Value → Bool
  | .host _ (.expander _) => true
  | _ => false

/-- The function takes the call and the scope under the names that `defmacro` gives them. -/
def takesScope : Value → Bool
  | .function _ (.vector (.symbol first :: .symbol second :: _)) _ _ =>
    first == "&form" && second == "&env"
  | _ => false

mutual

/-- Nothing in the value mentions one of the names, and all its transformers are those of the
library or made by `defmacro`. The names that the parameters of a function bind do not count: they
are harmless as long as nothing asks for them. The functions behind the library's transformers stand
nowhere else, since a program cannot get at them. -/
def oblivious (names : List String) : Value → Bool
  | .symbol name => !names.contains name
  | .list items => obliviousAll names items
  | .vector items => obliviousAll names items
  | .map entries => obliviousEntries names entries
  | .function _ params body _ => obliviousParams names params && obliviousAll names body
  | .host serial operation => !isLibrary (.host serial operation)
  | .transformer _ target => isLibrary target || takesScope target && oblivious names target
  | _ => true

/-- All the values are oblivious. -/
def obliviousAll (names : List String) : List Value → Bool
  | [] => true
  | value :: values => oblivious names value && obliviousAll names values

/-- All keys and values of a map are oblivious. -/
def obliviousEntries (names : List String) : Entries → Bool
  | [] => true
  | (key, value) :: entries =>
    oblivious names key && (oblivious names value && obliviousEntries names entries)

/-- The parameters of a function bind names or are oblivious. -/
def obliviousParams (names : List String) : Value → Bool
  | .vector params => obliviousTargets names params
  | _ => false

/-- Each of the parameters binds a name or is oblivious. -/
def obliviousTargets (names : List String) : List Value → Bool
  | [] => true
  | param :: params =>
    (param.symbolName?.isSome || oblivious names param) && obliviousTargets names params

end

theorem obliviousAll_iff {names : List String} {values : List Value} :
    obliviousAll names values = true ↔ ∀ value ∈ values, value.oblivious names = true := by
  induction values with
  | nil => simp [obliviousAll]
  | cons value values ih => simp [obliviousAll, ih]

theorem obliviousEntries_iff {names : List String} {entries : Entries} :
    obliviousEntries names entries = true ↔
      ∀ entry ∈ entries, entry.1.oblivious names = true ∧ entry.2.oblivious names = true := by
  induction entries with
  | nil => simp [obliviousEntries]
  | cons entry entries ih =>
    obtain ⟨key, value⟩ := entry
    simp [obliviousEntries, ih, and_assoc]

theorem obliviousTargets_iff {names : List String} {params : List Value} :
    obliviousTargets names params = true ↔
      ∀ param ∈ params, param.oblivious names = true ∨ ∃ name, param = .symbol name := by
  have hsymbol : ∀ param : Value, param.symbolName?.isSome = true ↔
      ∃ name, param = .symbol name := by
    intro param
    cases param <;> simp [symbolName?]
  induction params with
  | nil => simp [obliviousTargets]
  | cons param params ih => simp [obliviousTargets, ih, hsymbol, or_comm]

theorem oblivious_symbol {names : List String} {name : String} :
    (Value.symbol name).oblivious names = true ↔ name ∉ names := by
  show (!names.contains name) = true ↔ name ∉ names
  simp

theorem oblivious_function {names : List String} {serial : Nat} {params : Value}
    {body : List Value} {home : FrameId} :
    (Value.function serial params body home).oblivious names = true ↔
      (∃ patterns, params = .vector patterns ∧ ∀ param ∈ patterns,
        param.oblivious names = true ∨ ∃ name, param = .symbol name) ∧
      ∀ form ∈ body, form.oblivious names = true := by
  show (obliviousParams names params && obliviousAll names body) = true ↔ _
  rw [Bool.and_eq_true, obliviousAll_iff]
  refine and_congr_left fun _ => ?_
  cases params with
  | vector patterns => simp [obliviousParams, obliviousTargets_iff]
  | _ => simp [obliviousParams]

/-- The capability neither is a scope nor makes transformers. -/
def Sealed : Value → Prop
  | .environment _ => False
  | .host _ operation => operation ≠ .builtin .makeTransformer
  | _ => True

instance : DecidablePred Sealed := fun c =>
  match c with
  | .environment _ => .isFalse id
  | .host _ operation => inferInstanceAs (Decidable (operation ≠ .builtin .makeTransformer))
  | .nil | .bool _ | .number _ | .str _ | .symbol _ | .keyword _ | .list _ | .vector _ | .map _
  | .function .. | .transformer .. => .isTrue trivial

/-- The value does not tell what one of the names is bound to. -/
structure Discreet (names : List String) (value : Value) : Prop where
  oblivious : value.oblivious names = true
  sealed : value.Every Sealed

instance (names : List String) (value : Value) : Decidable (value.Discreet names) :=
  decidable_of_iff (value.oblivious names = true ∧ ∀ c ∈ value.capabilities, c.Sealed)
    ⟨fun h => ⟨h.1, h.2⟩, fun h => ⟨h.oblivious, h.sealed⟩⟩

variable {names : List String}

theorem discreet_symbol {name : String} : (Value.symbol name).Discreet names ↔ name ∉ names :=
  ⟨fun h => oblivious_symbol.1 h.oblivious, fun h => ⟨oblivious_symbol.2 h, by simp⟩⟩

theorem discreet_list {items : List Value} :
    (Value.list items).Discreet names ↔ ∀ item ∈ items, item.Discreet names := by
  constructor
  · intro h item hitem
    exact ⟨obliviousAll_iff.1 h.oblivious item hitem, (every_list _).1 h.sealed item hitem⟩
  · intro h
    exact ⟨obliviousAll_iff.2 fun item hitem => (h item hitem).oblivious,
      (every_list _).2 fun item hitem => (h item hitem).sealed⟩

theorem discreet_vector {items : List Value} :
    (Value.vector items).Discreet names ↔ ∀ item ∈ items, item.Discreet names := by
  constructor
  · intro h item hitem
    exact ⟨obliviousAll_iff.1 h.oblivious item hitem, (every_vector _).1 h.sealed item hitem⟩
  · intro h
    exact ⟨obliviousAll_iff.2 fun item hitem => (h item hitem).oblivious,
      (every_vector _).2 fun item hitem => (h item hitem).sealed⟩

theorem discreet_map {entries : Entries} :
    (Value.map entries).Discreet names ↔
      ∀ entry ∈ entries, entry.1.Discreet names ∧ entry.2.Discreet names := by
  constructor
  · intro h entry hentry
    obtain ⟨hkey, hvalue⟩ := (every_map _).1 h.sealed entry hentry
    obtain ⟨hkey', hvalue'⟩ := obliviousEntries_iff.1 h.oblivious entry hentry
    exact ⟨⟨hkey', hkey⟩, ⟨hvalue', hvalue⟩⟩
  · intro h
    refine ⟨obliviousEntries_iff.2 ?_, (every_map _).2 ?_⟩
    · exact fun entry hentry => ⟨(h entry hentry).1.oblivious, (h entry hentry).2.oblivious⟩
    · exact fun entry hentry => ⟨(h entry hentry).1.sealed, (h entry hentry).2.sealed⟩

/-- A parameter binds a name, or it is discreet like the code. -/
def Parameter (names : List String) (param : Value) : Prop :=
  param.Discreet names ∨ ∃ name, param = .symbol name

theorem discreet_function {serial : Nat} {params : Value} {body : List Value} {home : FrameId} :
    (Value.function serial params body home).Discreet names ↔
      (∃ patterns, params = .vector patterns ∧ ∀ param ∈ patterns, param.Parameter names) ∧
        ∀ form ∈ body, form.Discreet names := by
  constructor
  · intro h
    obtain ⟨-, hparams, hbody⟩ := every_function.1 h.sealed
    obtain ⟨⟨patterns, rfl, hpatterns⟩, hforms⟩ := oblivious_function.1 h.oblivious
    refine ⟨⟨patterns, rfl, fun param hparam => ?_⟩, fun form hform =>
      ⟨hforms form hform, hbody form hform⟩⟩
    exact (hpatterns param hparam).imp_left fun hoblivious =>
      ⟨hoblivious, (every_vector _).1 hparams param hparam⟩
  · rintro ⟨⟨patterns, rfl, hpatterns⟩, hbody⟩
    refine ⟨oblivious_function.2 ⟨⟨patterns, rfl, ?_⟩, fun form hform =>
        (hbody form hform).oblivious⟩,
      every_function.2 ⟨trivial, (every_vector _).2 ?_, fun form hform =>
        (hbody form hform).sealed⟩⟩
    · exact fun param hparam => (hpatterns param hparam).imp_left Discreet.oblivious
    · intro param hparam
      rcases hpatterns param hparam with hparam | ⟨name, rfl⟩
      · exact hparam.sealed
      · simp

/-- A host function of a discreet program makes neither forms nor transformers. -/
theorem Discreet.host {serial : Nat} {operation : HostOperation}
    (h : (Value.host serial operation).Discreet names) :
    operation ≠ .builtin .makeTransformer ∧ ∀ expander, operation ≠ .expander expander := by
  refine ⟨every_host.1 h.sealed, ?_⟩
  rintro expander rfl
  cases h.oblivious

/-- A transformer of a discreet program is one of the library, or its target is a function that
takes the call and the scope under names of its own. -/
theorem Discreet.transformer {serial : Nat} {target : Value}
    (h : (Value.transformer serial target).Discreet names) :
    (∃ number expander, target = .host number (.expander expander)) ∨
      ∃ number params body home, target = .function number
          (.vector (.symbol "&form" :: .symbol "&env" :: params)) body home ∧
        target.Discreet names := by
  obtain ⟨-, hsealed⟩ := every_transformer.1 h.sealed
  have hoblivious : (isLibrary target || takesScope target && target.oblivious names) = true :=
    h.oblivious
  rw [Bool.or_eq_true, Bool.and_eq_true] at hoblivious
  rcases hoblivious with hlibrary | ⟨hscope, htarget⟩
  · unfold isLibrary at hlibrary
    split at hlibrary
    · exact .inl ⟨_, _, rfl⟩
    · cases hlibrary
  · unfold takesScope at hscope
    split at hscope
    · rw [Bool.and_eq_true, beq_iff_eq, beq_iff_eq] at hscope
      obtain ⟨rfl, rfl⟩ := hscope
      exact .inr ⟨_, _, _, _, rfl, htarget, hsealed⟩
    · cases hscope

/-- A function that takes the call and the scope as `defmacro` has it makes a discreet
transformer. -/
theorem Discreet.of_takesScope {serial : Nat} {target : Value} (htarget : target.Discreet names)
    (hscope : target.takesScope = true) : (Value.transformer serial target).Discreet names := by
  refine ⟨?_, every_transformer.2 ⟨trivial, htarget.sealed⟩⟩
  show (isLibrary target || takesScope target && target.oblivious names) = true
  rw [hscope, htarget.oblivious, Bool.true_and, Bool.or_true]

/-- A discreet value has the same text in every store. -/
theorem Discreet.print_eq {value : Value} (h : value.Discreet names) (store store' : Store)
    (style : Style) : store.print style value = store'.print style value := by
  refine Printer.valueText_eq_of_every (h.sealed.mono ?_) style
  rintro c hc id rfl
  exact hc

end Value

/-! ## Stores that differ in one binding -/

namespace Frame

/-- The frame without a binding of the name. -/
def without (name : String) (frame : Frame) : Frame :=
  { frame with vars := frame.vars.filter (·.1 ≠ name) }

variable {s name : String}

theorem get?_without (frame : Frame) (hname : name ≠ s) :
    (frame.without s).get? name = frame.get? name := by
  unfold get? without
  induction frame.vars with
  | nil => rfl
  | cons var vars ih =>
    obtain ⟨bound, value⟩ := var
    dsimp only at ih ⊢
    by_cases hbound : bound = s
    · have hne : (name == bound) = false := by simpa [hbound] using hname
      rw [List.filter_cons_of_neg (by simpa using hbound), ih, List.lookup_cons, hne]
    · rw [List.filter_cons_of_pos (by simpa using hbound), List.lookup_cons, List.lookup_cons, ih]

theorem without_set (frame : Frame) (hname : name ≠ s) (value : Value) :
    (frame.set name value).without s = (frame.without s).set name value := by
  obtain ⟨outer, vars⟩ := frame
  unfold set without
  congr 1
  dsimp only
  induction vars with
  | nil => simp [setVar, hname]
  | cons var vars ih =>
    obtain ⟨bound, old⟩ := var
    rw [setVar]
    by_cases hbound : bound = name
    · subst hbound
      simp [setVar, hname]
    · rw [if_neg (by simpa using hbound)]
      by_cases hs : bound = s
      · rw [List.filter_cons_of_neg (by simpa using hs), ih,
          List.filter_cons_of_neg (by simpa using hs)]
      · rw [List.filter_cons_of_pos (by simpa using hs), ih,
          List.filter_cons_of_pos (by simpa using hs), setVar, if_neg (by simpa using hbound)]

theorem without_set_self (frame : Frame) (value : Value) :
    (frame.set s value).without s = frame.without s := by
  obtain ⟨outer, vars⟩ := frame
  unfold set without
  congr 1
  dsimp only
  induction vars with
  | nil => simp [setVar]
  | cons var vars ih =>
    obtain ⟨bound, old⟩ := var
    rw [setVar]
    by_cases hbound : bound = s
    · subst hbound
      simp
    · rw [if_neg (by simpa using hbound), List.filter_cons_of_pos (by simpa using hbound), ih,
        List.filter_cons_of_pos (by simpa using hbound)]

end Frame

namespace Store

/-- The stores differ at most in whether and to what one frame binds one name. -/
structure SameBut (root : FrameId) (s : String) (store store' : Store) : Prop where
  size : store'.size = store.size
  lt : root < store.size
  frames : ∀ id ≠ root, store'.frame? id = store.frame? id
  root : (store'.frame? root).map (·.without s) = (store.frame? root).map (·.without s)

namespace SameBut

variable {root : FrameId} {s : String} {store store' : Store}

theorem map_without (h : SameBut root s store store') (id : FrameId) :
    (store'.frame? id).map (·.without s) = (store.frame? id).map (·.without s) := by
  by_cases hid : id = root
  · rw [hid]
    exact h.root
  · rw [h.frames id hid]

theorem outer_eq (h : SameBut root s store store') (id : FrameId) :
    (store'.frame? id).map (·.outer) = (store.frame? id).map (·.outer) := by
  have houter := congrArg (Option.map (·.outer)) (h.map_without id)
  rwa [Option.map_map, Option.map_map] at houter

theorem chain_eq (h : SameBut root s store store') (id : FrameId) :
    store'.chain id = store.chain id :=
  chain_congr (S := Set.univ) (fun id _ => h.outer_eq id) (fun _ _ _ _ _ _ => trivial) trivial

theorem isRoot_eq (h : SameBut root s store store') (id : FrameId) :
    store'.isRoot id = store.isRoot id := by
  have houter := h.outer_eq id
  unfold isRoot
  generalize store.frame? id = frame, store'.frame? id = frame' at houter ⊢
  cases frame <;> cases frame' <;> simp_all

/-- Other names are bound to the same values. -/
theorem local?_eq (h : SameBut root s store store') (id : FrameId) {name : String}
    (hname : name ≠ s) : store'.local? id name = store.local? id name := by
  have hget : ∀ frame : Option Frame, frame.bind (·.get? name) =
      (frame.map (·.without s)).bind (·.get? name) := by
    rintro (_ | frame)
    · rfl
    · exact (frame.get?_without hname).symm
  rw [local?, local?, hget (store'.frame? id), hget (store.frame? id), h.map_without]

/-- Other names mean the same values. -/
theorem lookup?_eq (h : SameBut root s store store') (id : FrameId) {name : String}
    (hname : name ≠ s) : store'.lookup? id name = store.lookup? id name := by
  unfold lookup?
  rw [h.chain_eq]
  congr 1
  funext other
  exact h.local?_eq other hname

/-- Binding another name, or in another frame, keeps the difference. -/
theorem write (h : SameBut root s store store') {id : FrameId} {name : String}
    (hname : id = root → name ≠ s) (value : Value) (event : Event) :
    SameBut root s ((store.write id name value).record event)
      ((store'.write id name value).record event) := by
  refine ⟨?_, ?_, ?_, ?_⟩
  · exact (size_write store' id name value).trans
      (h.size.trans (size_write store id name value).symm)
  · exact h.lt.trans_eq (size_write store id name value).symm
  · intro other hother
    show (store'.write id name value).frame? other = (store.write id name value).frame? other
    rw [frame?_write, frame?_write, h.frames other hother]
  · show ((store'.write id name value).frame? root).map _ =
      ((store.write id name value).frame? root).map _
    rw [frame?_write, frame?_write]
    split
    · rename_i hid
      have hset : ∀ frame : Option Frame, (frame.map (·.set name value)).map (·.without s) =
          (frame.map (·.without s)).map (·.set name value) := by
        rintro (_ | frame)
        · rfl
        · exact congrArg some (frame.without_set (hname hid) value)
      rw [hset, hset, h.root]
    · exact h.root

theorem push (h : SameBut root s store store') (outer : Option FrameId) :
    SameBut root s (store.push outer) (store'.push outer) := by
  have hne : root ≠ store.size := Nat.ne_of_lt h.lt
  refine ⟨?_, ?_, ?_, ?_⟩
  · rw [size_push, size_push, h.size]
  · rw [size_push]
    exact Nat.lt_succ_of_lt h.lt
  · intro id hid
    rw [frame?_push, frame?_push, h.size, h.frames id hid]
  · rw [frame?_push, frame?_push, h.size, if_neg hne, if_neg hne]
    exact h.root

/-- A binding of the name, or another one, is such a difference. -/
theorem of_write {root : FrameId} (hroot : root < store.size) (s : String) (value : Value)
    (event : Event) : SameBut root s store ((store.write root s value).record event) := by
  refine ⟨size_write store root s value, hroot, ?_, ?_⟩
  · intro id hid
    exact (frame?_write store root id s value).trans (if_neg (Ne.symm hid))
  · show ((store.write root s value).frame? root).map _ = _
    rw [frame?_write, if_pos rfl, Option.map_map]
    congr 1
    funext frame
    exact frame.without_set_self value

end SameBut

end Store

end SmallLisp
