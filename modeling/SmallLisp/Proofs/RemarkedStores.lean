import SmallLisp.Proofs.Coupling
import SmallLisp.Proofs.Correspondence
import SmallLisp.Proofs.Remarks

/-!
# Sessions that differ in remarks

Two runs of code that differs in remarks make functions whose bodies differ in remarks, and bind
them. So the values that the runs handle are related, not equal, and so are their stores.

* `Sites`: the frames in which the library's `comment` and `defn` are what these names mean. Only
  there may remarks have been put into code.
* `Value.Resembles`: the values are the same but for remarks in the bodies of functions.
* `Store.Resembles`: the frames are the same but for the functions in them, and each site is one.
  What is bound to hidden names, and the library's own transformers, is the same on both sides.
* `Remarks.pairing`: machines with such stores, on which probes have been called alike. What they
  have logged is left out of account: remarks are expanded, and that is logged.
-/

namespace SmallLisp

/-- The frames in which remarks may have been put into code. -/
structure Sites where
  /-- Remarks may have been put into code that runs in the frame. -/
  Mem : FrameId → Prop

namespace Sites

instance : Preorder Sites where
  le w w₂ := ∀ id, w.Mem id → w₂.Mem id
  le_refl _ _ h := h
  le_trans _ _ _ h h' id hid := h' id (h id hid)

/-- A new frame is a site if it lies in one. -/
def grow (w : Sites) (outer id : FrameId) : Sites where
  Mem other := w.Mem other ∨ other = id ∧ w.Mem outer

theorem le_grow (w : Sites) (outer id : FrameId) : w ≤ w.grow outer id :=
  fun _ => .inl

end Sites

variable {hidden : List String} {w w₂ : Sites}

/-! ## Values -/

section values

variable (hidden) (w)

/-- The values are the same but for remarks in the bodies of functions, and so is all code in them
tidy. -/
inductive Value.Resembles : Value → Value → Prop
  | nil : Resembles .nil .nil
  | bool (b : Bool) : Resembles (.bool b) (.bool b)
  | number (n : Number) : Resembles (.number n) (.number n)
  | str (text : String) : Resembles (.str text) (.str text)
  | symbol (name : String) : Resembles (.symbol name) (.symbol name)
  | keyword (name : String) : Resembles (.keyword name) (.keyword name)
  | list {items items' : List Value} : items.length = items'.length →
      (∀ pair ∈ items.zip items', Resembles pair.1 pair.2) → Resembles (.list items) (.list items')
  | vector {items items' : List Value} : items.length = items'.length →
      (∀ pair ∈ items.zip items', Resembles pair.1 pair.2) →
      Resembles (.vector items) (.vector items')
  | map {entries entries' : Entries} : entries.length = entries'.length →
      (∀ pair ∈ entries.zip entries', Resembles pair.1.1 pair.2.1) →
      (∀ pair ∈ entries.zip entries', Resembles pair.1.2 pair.2.2) →
      Resembles (.map entries) (.map entries')
  | function {serial : Nat} {params : Value} {body body' : List Value} {home : FrameId} :
      (∀ pattern ∈ params.elements?.getD [], pattern.Tidy hidden) →
      Strewn (Remarked hidden (w.Mem home)) (w.Mem home) body body' →
      Resembles (.function serial params body home) (.function serial params body' home)
  | host {serial : Nat} {operation : HostOperation} : operation.harmless = true →
      Resembles (.host serial operation) (.host serial operation)
  | environment (frame : FrameId) : Resembles (.environment frame) (.environment frame)

end values

namespace Value.Resembles

open Alike (forall₂_iff forall₂_entries_iff Equates equates_list equates_vector equates_map SameText
  sameText_list sameText_vector sameText_map)

/-- More sites make more values resemble each other. -/
theorem mono (hle : w ≤ w₂) {a a' : Value} (h : Resembles hidden w a a') :
    Resembles hidden w₂ a a' := by
  induction h with
  | nil => exact .nil
  | bool b => exact .bool b
  | number n => exact .number n
  | str text => exact .str text
  | symbol name => exact .symbol name
  | keyword name => exact .keyword name
  | list hlength _ ih => exact .list hlength ih
  | vector hlength _ ih => exact .vector hlength ih
  | map hlength _ _ ihkeys ihvalues => exact .map hlength ihkeys ihvalues
  | function hparams hbody =>
    exact .function hparams (Remarked.strewn_imp (hle _) hbody)
  | host hharmless => exact .host hharmless
  | environment frame => exact .environment frame

theorem pairs {a a' : Value} (h : Resembles hidden w a a') : Pairs (Resembles hidden w) a a' := by
  cases h with
  | nil => exact .nil
  | bool b => exact .bool b
  | number n => exact .number n
  | str text => exact .str text
  | symbol name => exact .symbol name
  | keyword name => exact .keyword name
  | list hlength hitems => exact .list (forall₂_iff.1 ⟨hlength, hitems⟩)
  | vector hlength hitems => exact .vector (forall₂_iff.1 ⟨hlength, hitems⟩)
  | map hlength hkeys hvalues => exact .map (forall₂_entries_iff.1 ⟨hlength, hkeys, hvalues⟩)
  | function => exact .function ..
  | host => exact .host ..
  | environment => exact .environment ..

/-- Equality tells functions apart by their serial numbers and does not look into them. -/
theorem equates {a a' : Value} (ha : Resembles hidden w a a') :
    Equates (Resembles hidden w) a a' := by
  induction ha with
  | list hlength _ ih => exact equates_list pairs (forall₂_iff.1 ⟨hlength, ih⟩)
  | vector hlength _ ih => exact equates_vector pairs (forall₂_iff.1 ⟨hlength, ih⟩)
  | map hlength _ _ ihkeys ihvalues =>
    exact equates_map pairs (forall₂_entries_iff.1 ⟨hlength, ihkeys, ihvalues⟩)
  | _ =>
    intro b b' hb
    cases hb <;> rfl

theorem likeness (hidden : List String) (w : Sites) : Likeness (Resembles hidden w) where
  pairs h := h.pairs
  equal ha hb := ha.equates _ _ hb
  nil := .nil
  bool b := .bool b
  number n := .number n
  str text := .str text
  list h := .list (forall₂_iff.2 h).1 (forall₂_iff.2 h).2
  vector h := .vector (forall₂_iff.2 h).1 (forall₂_iff.2 h).2
  map h := .map (forall₂_entries_iff.2 h).1 (forall₂_entries_iff.2 h).2.1
    (forall₂_entries_iff.2 h).2.2

/-- A function shows its parameters and not its body. -/
theorem sameText {scope : Style → FrameId → Printer.Printed} {a a' : Value}
    (h : Resembles hidden w a a') : SameText scope scope a a' := by
  induction h with
  | list hlength _ ih => exact sameText_list (forall₂_iff.1 ⟨hlength, ih⟩)
  | vector hlength _ ih => exact sameText_vector (forall₂_iff.1 ⟨hlength, ih⟩)
  | map hlength _ _ ihkeys ihvalues =>
    exact sameText_map (forall₂_entries_iff.1 ⟨hlength, ihkeys, ihvalues⟩)
  | function =>
    intro style
    simp only [Printer.valueText]
  | _ =>
    intro style
    rfl

mutual

/-- A clean value resembles itself. -/
theorem self : ∀ {value : Value}, value.Clean hidden → Resembles hidden w value value
  | .nil, _ => .nil
  | .bool b, _ => .bool b
  | .number n, _ => .number n
  | .str text, _ => .str text
  | .symbol name, _ => .symbol name
  | .keyword name, _ => .keyword name
  | .list items, h => (likeness hidden w).list (self_each (clean_list.1 h))
  | .vector items, h => (likeness hidden w).vector (self_each (clean_vector.1 h))
  | .map entries, h => (likeness hidden w).map (self_entries (clean_map.1 h))
  | .function .., h => by
    obtain ⟨hparams, hbody⟩ := proper_function.1 h
    exact .function hparams (Remarked.strewn_same hbody)
  | .host .., h => .host h
  | .environment frame, _ => .environment frame

theorem self_each : ∀ {values : List Value}, (∀ value ∈ values, value.Clean hidden) →
    values.Forall₂ (Resembles hidden w) values
  | [], _ => .nil
  | _ :: _, h => .cons (self (List.forall_mem_cons.1 h).1) (self_each (List.forall_mem_cons.1 h).2)

theorem self_entries : ∀ {entries : Entries},
    (∀ entry ∈ entries, entry.1.Clean hidden ∧ entry.2.Clean hidden) →
    entries.Forall₂ (fun entry entry' => Resembles hidden w entry.1 entry'.1 ∧
      Resembles hidden w entry.2 entry'.2) entries
  | [], _ => .nil
  | (_, _) :: _, h => by
    obtain ⟨⟨hkey, hvalue⟩, hentries⟩ := List.forall_mem_cons.1 h
    exact .cons ⟨self hkey, self hvalue⟩ (self_entries hentries)

end

end Value.Resembles

/-! ## Bindings -/

/-- The value is the transformer of the library behind which the expander stands. -/
def Value.isLibraryOf (expander : Expander) : Value → Bool
  | .transformer _ (.host _ (.expander other)) => other == expander
  | _ => false

theorem Value.isLibraryOf_iff {expander : Expander} {value : Value} :
    value.isLibraryOf expander = true ↔
      ∃ serial number, value = .transformer serial (.host number (.expander expander)) := by
  constructor
  · intro h
    unfold isLibraryOf at h
    split at h
    · rw [beq_iff_eq.1 h]
      exact ⟨_, _, rfl⟩
    · cases h
  · rintro ⟨serial, number, rfl⟩
    exact beq_self_eq_true expander

/-- The name may be bound to the value whatever the value is like: no code asks for the name, or
only calls the transformer of the library that it names. -/
def exempt (hidden : List String) (name : String) (value : Value) : Bool :=
  if name = "comment" then value.isLibraryOf .remark
  else if name = "defn" then value.isLibraryOf .defineFunction
  else hidden.contains name

/-- The name may be bound to the values on the two sides: they resemble each other, or they are the
same, and exempt. -/
def Bound (hidden : List String) (w : Sites) (name : String) (value value' : Value) : Prop :=
  value.Resembles hidden w value' ∨ value = value' ∧ exempt hidden name value = true

namespace Bound

variable {name : String} {value value' : Value}

theorem mono (hle : w ≤ w₂) (h : Bound hidden w name value value') :
    Bound hidden w₂ name value value' :=
  h.imp_left (·.mono hle)

/-- Code asks for what resembles each other. -/
theorem resembles (h : Bound hidden w name value value')
    (hname : (Value.symbol name).Tidy hidden) : value.Resembles hidden w value' := by
  obtain ⟨hhidden, hcomment, hdefn⟩ := Value.tidy_symbol.1 hname
  rcases h with h | ⟨-, h⟩
  · exact h
  · rw [exempt, if_neg hcomment, if_neg hdefn, List.contains_iff_mem] at h
    exact absurd h hhidden

theorem text_eq {scope : Style → FrameId → Printer.Printed} (h : Bound hidden w name value value')
    (style : Style) :
    Printer.valueText scope style value = Printer.valueText scope style value' := by
  rcases h with h | ⟨rfl, -⟩
  · exact h.sameText style
  · rfl

end Bound

/-! ## Stores -/

section stores

variable (hidden) (w)

/-- The frames lie in the same frame and bind the same names. -/
structure Frame.Resembles (frame frame' : Frame) : Prop where
  outer : frame'.outer = frame.outer
  vars : frame.vars.Forall₂ (Frame.VarRel (Bound hidden w)) frame'.vars

/-- The name means the transformer of the library that has this name. -/
def Store.MeansLibrary (store : Store) (id : FrameId) (expander : Expander) : Prop :=
  ∃ value, store.lookup? id expander.name = some value ∧ value.isLibraryOf expander = true

/-- The frames of the stores resemble each other, and in each site the names `comment` and `defn`
mean what they mean in the library. -/
structure Store.Resembles (store store' : Store) : Prop where
  size : store'.size = store.size
  frames : ∀ id, Option.Rel (Frame.Resembles hidden w) (store.frame? id) (store'.frame? id)
  library : ∀ id, w.Mem id → ∀ expander ∈ [Expander.remark, Expander.defineFunction],
    store.MeansLibrary id expander

end stores

theorem Frame.Resembles.mono (hle : w ≤ w₂) {frame frame' : Frame}
    (h : frame.Resembles hidden w frame') : frame.Resembles hidden w₂ frame' :=
  ⟨h.outer, h.vars.imp fun _ _ hvar => ⟨hvar.1, hvar.2.mono hle⟩⟩

namespace Store.Resembles

variable {store store' : Store}

theorem outer_eq (h : Store.Resembles hidden w store store') (id : FrameId) :
    (store'.frame? id).map (·.outer) = (store.frame? id).map (·.outer) := by
  have hframe := h.frames id
  generalize store.frame? id = frame, store'.frame? id = frame' at hframe ⊢
  cases hframe with
  | none => rfl
  | some hframe => exact congrArg some hframe.outer

theorem chain_eq (h : Store.Resembles hidden w store store') (id : FrameId) :
    store'.chain id = store.chain id :=
  chain_congr (S := Set.univ) (fun id _ => h.outer_eq id) (fun _ _ _ _ _ _ => trivial) trivial

theorem root_eq (h : Store.Resembles hidden w store store') (id : FrameId) :
    store'.root id = store.root id :=
  root_eq_of_chain (h.chain_eq id)

theorem isRoot_eq (h : Store.Resembles hidden w store store') (id : FrameId) :
    store'.isRoot id = store.isRoot id := by
  have houter := h.outer_eq id
  unfold isRoot
  generalize store.frame? id = frame, store'.frame? id = frame' at houter ⊢
  cases frame <;> cases frame' <;> simp_all

theorem rel_local? (h : Store.Resembles hidden w store store') (id : FrameId) (name : String) :
    Option.Rel (Bound hidden w name) (store.local? id name) (store'.local? id name) := by
  have hframe := h.frames id
  unfold Store.local?
  generalize store.frame? id = frame, store'.frame? id = frame' at hframe ⊢
  cases hframe with
  | none => exact .none
  | some hframe => exact Frame.rel_lookup hframe.vars name

theorem rel_lookup? (h : Store.Resembles hidden w store store') (id : FrameId) (name : String) :
    Option.Rel (Bound hidden w name) (store.lookup? id name) (store'.lookup? id name) := by
  unfold Store.lookup?
  rw [h.chain_eq]
  generalize store.chain id = ids
  induction ids with
  | nil => exact .none
  | cons other ids ih =>
    have hlocal := h.rel_local? other name
    rw [List.findSome?_cons, List.findSome?_cons]
    generalize store.local? other name = value, store'.local? other name = value' at hlocal ⊢
    cases hlocal with
    | some hvalue => exact .some hvalue
    | none => exact ih

/-- The check of a program finds the same transformers on both sides. -/
theorem bindsTransformer_eq (h : Store.Resembles hidden w store store') (id : FrameId) :
    store'.bindsTransformer id = store.bindsTransformer id := by
  funext name
  have hvalue := h.rel_lookup? id name
  unfold bindsTransformer
  generalize store.lookup? id name = value, store'.lookup? id name = value' at hvalue ⊢
  cases hvalue with
  | none => rfl
  | some hvalue =>
    rcases hvalue with hvalue | ⟨rfl, -⟩
    · cases hvalue <;> rfl
    · rfl

/-! ### Texts -/

theorem environmentText_eq (h : Store.Resembles hidden w store store') (depth : Nat) :
    Printer.environmentText store' depth = Printer.environmentText store depth := by
  induction depth with
  | zero => rfl
  | succ depth ih =>
    have hframe : Printer.frameText store' depth = Printer.frameText store depth := by
      funext id
      have hframe := h.frames id
      unfold Printer.frameText
      rw [ih]
      generalize store.frame? id = frame, store'.frame? id = frame' at hframe ⊢
      cases hframe with
      | none => rfl
      | some hframe =>
        refine (Printer.varsText_eq (hframe.vars.imp fun _ _ hvar => ?_)).symm
        exact ⟨hvar.1, hvar.2.text_eq .inspect⟩
    funext style id
    rw [Printer.environmentText_succ, Printer.environmentText_succ, h.isRoot_eq, h.chain_eq, hframe]

/-- Values that resemble each other have the same text. -/
theorem print_eq (h : Store.Resembles hidden w store store') {value value' : Value}
    (hvalue : value.Resembles hidden w value') (style : Style) :
    store.print style value = store'.print style value' := by
  unfold Store.print
  rw [h.size, h.environmentText_eq]
  exact hvalue.sameText style

/-- Code that differs in remarks has a text on both sides or on neither. -/
theorem endsLike_print (h : Store.Resembles hidden w store store') {p : Prop} {form form' : Value}
    (hform : Remarked hidden p form form') (style : Style) :
    Printer.EndsLike (store.print style form) (store'.print style form') := by
  unfold Store.print
  rw [h.size, h.environmentText_eq]
  exact hform.endsLike style

/-! ### Steps -/

/-- A name that code mentions is bound to values that resemble each other. -/
theorem write (h : Store.Resembles hidden w store store') (id : FrameId) {name : String}
    (hname : (Value.symbol name).Tidy hidden) {value value' : Value}
    (hvalue : value.Resembles hidden w value') (event event' : Event) :
    Store.Resembles hidden w ((store.write id name value).record event)
      ((store'.write id name value').record event') := by
  refine ⟨?_, ?_, ?_⟩
  · exact (size_write store' id name value').trans
      (h.size.trans (size_write store id name value).symm)
  · intro other
    show Option.Rel _ ((store.write id name value).frame? other)
      ((store'.write id name value').frame? other)
    have hframe := h.frames other
    rw [frame?_write, frame?_write]
    generalize store.frame? other = frame, store'.frame? other = frame' at hframe ⊢
    split
    · cases hframe with
      | none => exact .none
      | some hframe =>
        exact .some ⟨hframe.outer, Frame.forall₂_setVar hframe.vars (.inl hvalue)⟩
    · exact hframe
  · intro other hother expander hexpander
    have hne : expander.name ≠ name := by
      obtain ⟨-, hcomment, hdefn⟩ := Value.tidy_symbol.1 hname
      rcases List.mem_pair.1 hexpander with rfl | rfl
      · exact hcomment.symm
      · exact hdefn.symm
    obtain ⟨found, hlookup, hlibrary⟩ := h.library other hother expander hexpander
    exact ⟨found, (lookup?_write_of_ne store id value event hne other).trans hlookup, hlibrary⟩

theorem enter (h : Store.Resembles hidden w store store') (id : FrameId) :
    Store.Resembles hidden w (store.enter id) (store'.enter id) := by
  refine ⟨h.size, h.frames, fun other hother expander hexpander => ?_⟩
  obtain ⟨found, hlookup, hlibrary⟩ := h.library other hother expander hexpander
  exact ⟨found, (lookup?_congr (frame?_enter store id) other _).trans hlookup, hlibrary⟩

/-- A frame made inside a site is one. -/
theorem push (h : Store.Resembles hidden w store store') (outer : FrameId) :
    Store.Resembles hidden (w.grow outer store.size) (store.push (some outer))
      (store'.push (some outer)) := by
  have hle := w.le_grow outer store.size
  refine ⟨by rw [size_push, size_push, h.size], ?_, ?_⟩
  · intro id
    have hframe := h.frames id
    rw [frame?_push, frame?_push, h.size]
    generalize store.frame? id = frame, store'.frame? id = frame' at hframe ⊢
    split
    · exact .some ⟨rfl, .nil⟩
    · cases hframe with
      | none => exact .none
      | some hframe => exact .some (hframe.mono hle)
  · intro id hid expander hexpander
    rcases hid with hid | ⟨rfl, houter⟩
    · obtain ⟨found, hlookup, hlibrary⟩ := h.library id hid expander hexpander
      exact ⟨found, (lookup?_push_of_lt store (some outer) (lt_size_of_lookup? hlookup) _).trans
        hlookup, hlibrary⟩
    · obtain ⟨found, hlookup, hlibrary⟩ := h.library outer houter expander hexpander
      exact ⟨found, (lookup?_push_size (lt_size_of_lookup? hlookup) _).trans hlookup, hlibrary⟩

end Store.Resembles

/-! ## Machines -/

namespace Remarks

variable {m m' : Machine}

section machines

variable (hidden) (w)

/-- The calls are of the same probe, with arguments that are the same or resemble each other. -/
structure CallLike (call call' : ProbeCall) : Prop where
  serial : call'.serial = call.serial
  probe : call'.probe = call.probe
  arguments : call.arguments.Forall₂ (fun a a' => a = a' ∨ a.Resembles hidden w a') call'.arguments

/-- The machines have stores that resemble each other, and probes have been called alike. -/
structure Twins (m m' : Machine) : Prop where
  store : Store.Resembles hidden w m.store m'.store
  serial : m'.serial = m.serial
  verbose : m'.verbose = m.verbose
  calls : m.calls.toList.Forall₂ (CallLike hidden w) m'.calls.toList

end machines

theorem CallLike.mono (hle : w ≤ w₂) {call call' : ProbeCall} (h : CallLike hidden w call call') :
    CallLike hidden w₂ call call' :=
  ⟨h.serial, h.probe, h.arguments.imp fun _ _ => .imp_right (·.mono hle)⟩

namespace Twins

/-- New stores and serial numbers leave the rest as it is. -/
theorem update (h : Twins hidden w m m') (hle : w ≤ w₂) {store store' : Store}
    {serial serial' : Nat} (hstore : Store.Resembles hidden w₂ store store')
    (hserial : serial' = serial) :
    Twins hidden w₂ { m with store := store, serial := serial }
      { m' with store := store', serial := serial' } :=
  ⟨hstore, hserial, h.verbose, h.calls.imp fun _ _ hcall => hcall.mono hle⟩

/-- What is logged does not matter. -/
theorem log (h : Twins hidden w m m') (lines lines' : Array String) :
    Twins hidden w { m with log := lines } { m' with log := lines' } :=
  ⟨h.store, h.serial, h.verbose, h.calls⟩

/-- A probe has been called equally often. -/
theorem size_filter_eq (h : Twins hidden w m m') (serial : Nat) :
    (m'.calls.filter fun call => call.serial == serial).size =
      (m.calls.filter fun call => call.serial == serial).size := by
  have hlist : ∀ calls : Array ProbeCall, (calls.filter fun call => call.serial == serial).size =
      (calls.toList.filter fun call => call.serial == serial).length := fun calls => by
    rw [← Array.length_toList, Array.toList_filter]
  have hcalls := h.calls
  rw [hlist, hlist]
  generalize m.calls.toList = calls, m'.calls.toList = calls' at hcalls ⊢
  induction hcalls with
  | nil => rfl
  | cons hcall _ ih =>
    rw [List.filter_cons, List.filter_cons, hcall.serial]
    split
    · rw [List.length_cons, List.length_cons, ih]
    · exact ih

theorem record (h : Twins hidden w m m') (serial : Nat) (name : String)
    {arguments arguments' : List Value}
    (harguments : arguments.Forall₂ (Value.Resembles hidden w) arguments') :
    Twins hidden w { m with calls := m.calls.push ⟨serial, name, arguments⟩ }
      { m' with calls := m'.calls.push ⟨serial, name, arguments'⟩ } := by
  refine ⟨h.store, h.serial, h.verbose, ?_⟩
  rw [Array.toList_push, Array.toList_push]
  exact List.rel_append h.calls (.cons ⟨rfl, rfl, harguments.imp fun _ _ => .inr⟩ .nil)

end Twins

/-- Expanders that programs may hold make forms that resemble each other. -/
theorem agree_expand {expander : Expander} (hharmless : expander ≠ .defineTransformer)
    {operands operands' : List Value} (h : operands.Forall₂ (Value.Resembles hidden w) operands') :
    Agree (Value.Resembles hidden w) (Value.Resembles hidden w) (expander.expand operands)
      (expander.expand operands') := by
  have hlikeness := Value.Resembles.likeness hidden w
  cases expander with
  | remark => exact .ok .nil
  | defineTransformer => exact absurd rfl hharmless
  | defineFunction =>
    refine (hlikeness.agree_parts .defineFunction h).bind ?_
    rintro ⟨name, params, body⟩ ⟨_, params', body'⟩ ⟨rfl, -, hparams, hbody⟩
    have hfunction : Value.Resembles hidden w (Expander.fnForm params body)
        (Expander.fnForm params' body') :=
      hlikeness.list (.cons (.symbol _) (.cons (hlikeness.vector hparams) hbody))
    exact .ok (hlikeness.list (.cons (.symbol _) (.cons (.symbol _) (.cons hfunction .nil))))

/-- Runs of code that differs in remarks, and in nothing else that programs see. -/
def pairing (hidden : List String) : Pairing Sites where
  Like := Value.Resembles hidden
  Twins := Twins hidden
  Fresh _ serial serial' := serial = serial'
  likeness := Value.Resembles.likeness hidden
  like_mono hle h := h.mono hle
  verbose h := h.verbose.symm
  print h hvalue style := h.store.print_eq hvalue style
  serial {w _ _} h :=
    ⟨w, le_rfl, h.serial.symm, h.update le_rfl h.store (congrArg (· + 1) h.serial)⟩
  logLine h line := h.log _ _
  record h hprobe harguments := by
    cases hprobe
    exact ⟨(h.size_filter_eq _).symm, h.record _ _ harguments⟩
  transformer _ hmaker _ := by
    cases hmaker with
    | host hharmless => cases hharmless
  expander _ hexpander hoperands := by
    cases hexpander with
    | host hharmless =>
      refine agree_expand ?_ hoperands
      rintro rfl
      cases hharmless

end Remarks

end SmallLisp
