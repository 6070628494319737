import SmallLisp.Proofs.Readable
import SmallLisp.Proofs.Spelling

/-!
# Printed forms are read again

A form of a text is printed as a text that reads as one form again.

* `Tree.readable_value`: every form of a text is `Readable`.
* `Value.Renders`: the value is printed as the text, the text spells the tokens of the tree, and the
  tree denotes what the value is read as. `Readable.exists_renders` finds text and tree for every
  readable value, by induction on how it is made.
* **`Reader.readForms_print`**: what comes back is the same form exactly if all its numbers are
  finite and written without an exponent, and otherwise it does not even equal the form.
-/

namespace SmallLisp

/-! ## Forms of texts are readable -/

theorem Bracket.readable_collection {items : List Value} (bracket : Bracket)
    (h : ∀ item ∈ items, item.Readable) : (bracket.collection items).Readable := by
  cases bracket with
  | round => exact .list h
  | square => exact .vector h
  | curly =>
    rw [Bracket.collection, Entries.ofFlat]
    cases hflat : Entries.ofFlat? items with
    | none => exact .map List.Pairwise.nil (List.forall_mem_nil _) (List.forall_mem_nil _)
    | some entries =>
      have hwithin := Entries.within_ofFlat? hflat h
      obtain ⟨pairs, -, rfl⟩ := Option.map_eq_some_iff.1 hflat
      exact .map (Entries.distinct_ofPairs pairs) (fun entry hentry => (hwithin entry hentry).1)
        fun entry hentry => (hwithin entry hentry).2

namespace Tree

theorem readable_comment : (Value.symbol "comment").Readable :=
  .atom (by decide) (List.all_eq_true.1 (by decide)) (rfl : Atom.read "comment" = _)

theorem readable_quote : (Value.symbol "quote").Readable :=
  .atom (by decide) (List.all_eq_true.1 (by decide)) (rfl : Atom.read "quote" = _)

mutual

/-- A valid tree of tokens that were cut out of a text denotes a readable value. -/
theorem readable_value : ∀ tree : Tree, tree.Valid → (∀ token ∈ tree.tokens, Lexer.Lexeme token) →
    tree.value.Readable
  | .atom text, hvalid, hlexeme => by
    obtain ⟨hne, hall⟩ := hlexeme ⟨.atom, text⟩ List.mem_cons_self
    exact .atom hne hall (Atom.read_eq_value hvalid)
  | .string text, _, _ => .str _
  | .remark text, _, _ => by
    refine .list (List.forall_mem_cons.2 ⟨readable_comment, ?_⟩)
    exact List.forall_mem_singleton.2 (.str _)
  | .quoted mark tree, hvalid, hlexeme => by
    have htree := readable_value tree hvalid (List.forall_mem_cons.1 hlexeme).2
    refine .list (List.forall_mem_cons.2 ⟨readable_quote, ?_⟩)
    exact List.forall_mem_singleton.2 htree
  | .group bracket opening closing trees, hvalid, hlexeme => by
    have hinner := (List.forall_mem_append.1 (List.forall_mem_cons.1 hlexeme).2).1
    exact bracket.readable_collection (readable_values trees hvalid.2 hinner)

theorem readable_values : ∀ trees : List Tree, ValidAll trees →
    (∀ token ∈ tokensAll trees, Lexer.Lexeme token) → ∀ value ∈ values trees, value.Readable
  | [], _, _ => List.forall_mem_nil _
  | tree :: trees, hvalid, hlexeme => by
    obtain ⟨hfirst, hrest⟩ := List.forall_mem_append.1 hlexeme
    exact List.forall_mem_cons.2
      ⟨readable_value tree hvalid.1 hfirst, readable_values trees hvalid.2 hrest⟩

end

end Tree

/-- Every form of a text is readable. -/
theorem Reader.readable_of_mem_readText {source : String} {form : Value}
    (h : form ∈ (readText source).forms) : form.Readable := by
  obtain ⟨tree, hvalid, rfl, htokens⟩ := exists_tree_of_mem_readText h
  apply tree.readable_value hvalid
  exact fun token htoken => Lexer.lexeme_of_mem_scan source token (htokens token htoken)

/-! ## Printing -/

namespace Value

open SmallLisp.Printer SmallLisp.Lexer SmallLisp.Tree

variable {scope : Style → FrameId → Printed}

/-- The value is printed as the text, which spells the tree, which denotes what is read again. -/
structure Renders (scope : Style → FrameId → Printed) (value : Value) (text : String)
    (tree : Tree) : Prop where
  printed : valueText scope .source value = .ok text
  spelled : Spells text.toList tree.tokens
  valid : tree.Valid
  denotes : tree.value = value.reread

/-- An atom renders a value if it is read as what the value is read as. -/
theorem renders_atom {value : Value} {text : String}
    (hprinted : valueText scope .source value = .ok text)
    (hspelled : Spells text.toList [⟨.atom, text⟩]) (hread : Atom.read text = .ok value.reread) :
    Renders scope value text (.atom text) := by
  obtain ⟨hvalid, hvalue⟩ := Atom.eq_value_of_read hread
  exact ⟨hprinted, hspelled, hvalid, hvalue.symm⟩

theorem renders_number {n : Number} {cs : List Char} (h : Atom.readNumber? cs = some (.ok n)) :
    ∃ text tree, Renders scope (.number n) text tree := by
  rcases Atom.readNumber?_spec h with ⟨i, rfl, hsmall⟩ | ⟨x, rfl, -⟩
  · refine ⟨toString i, _, renders_atom ?_ (spells_int i) (Numeral.read_toString_int hsmall)⟩
    rw [valueText, Number.text?, Numeral.intText?_of_lt hsmall]
  · refine ⟨x.text, _, renders_atom rfl (spells_float x) ?_⟩
    by_cases hplain : x.Plain
    · rw [reread, if_pos hplain]
      exact Binary64.read_text_of_plain hplain
    · rw [reread, if_neg hplain]
      exact Binary64.read_text_of_not_plain hplain

theorem renders_read {value : Value} {text : String} (hne : text.toList ≠ [])
    (hall : ∀ c ∈ text.toList, isAtomChar c = true) (hread : Atom.read text = .ok value) :
    ∃ text tree, Renders scope value text tree := by
  have hspelled := spells_atom hne hall
  rcases Atom.read_cases hread with ⟨n, rfl, hnumber⟩ | ⟨rfl, rfl⟩ | ⟨b, rfl, htext⟩ |
    ⟨name, rfl, rfl⟩ | rfl
  · exact renders_number hnumber
  · exact ⟨_, _, renders_atom rfl hspelled hread⟩
  · exact ⟨_, _, renders_atom (congrArg Except.ok htext.symm) hspelled hread⟩
  · exact ⟨_, _, renders_atom rfl hspelled hread⟩
  · exact ⟨_, _, renders_atom rfl hspelled hread⟩

theorem renders_str (text : String) :
    Renders scope (.str text) (Printer.quoted text) (.string (Printer.quoted text)) := by
  have hinside : (Printer.quoted text).toList.tail.dropLast = Text.escape text.toList := by
    rw [toList_quoted, List.tail_cons, List.dropLast_concat]
  refine ⟨rfl, spells_quoted text, ?_, ?_⟩
  · rw [Tree.Valid, hinside]
    exact Text.escaped_of_unescape (Text.unescape_escape text.toList)
  · rw [Tree.value, hinside, Text.unescaped, Text.unescape_escape]
    exact congrArg Value.str String.ofList_toList

/-- The items of a collection are printed as texts that spell trees. -/
theorem exists_itemTexts {items : List Value}
    (h : ∀ item ∈ items, ∃ text tree, Renders scope item text tree) :
    ∃ texts trees, itemTexts scope items = .ok texts ∧ SpellsRow texts (tokensAll trees) ∧
      ValidAll trees ∧ values trees = rereadAll items := by
  induction items with
  | nil => exact ⟨[], [], rfl, .nil, trivial, rfl⟩
  | cons item items ih =>
    obtain ⟨⟨text, tree, hitem⟩, hitems⟩ := List.forall_mem_cons.1 h
    obtain ⟨texts, trees, htexts, hrow, hvalid, hvalues⟩ := ih hitems
    refine ⟨text :: texts, tree :: trees, ?_, .cons hitem.spelled hrow, ⟨hitem.valid, hvalid⟩, ?_⟩
    · rw [itemTexts, hitem.printed, htexts]
      rfl
    · rw [values, rereadAll, hitem.denotes, hvalues]

/-- The entries of a map are printed as texts that spell trees. -/
theorem exists_entryTexts {entries : Entries}
    (hkeys : ∀ entry ∈ entries, ∃ text tree, Renders scope entry.1 text tree)
    (hvalues : ∀ entry ∈ entries, ∃ text tree, Renders scope entry.2 text tree) :
    ∃ texts trees, entryTexts scope entries = .ok texts ∧ SpellsRow texts (tokensAll trees) ∧
      ValidAll trees ∧ Entries.pairUp? (values trees) = some (rereadEntries entries) := by
  induction entries with
  | nil => exact ⟨[], [], rfl, .nil, trivial, rfl⟩
  | cons entry entries ih =>
    obtain ⟨key, value⟩ := entry
    obtain ⟨⟨keyText, keyTree, hkey⟩, hkeys⟩ := List.forall_mem_cons.1 hkeys
    obtain ⟨⟨text, tree, hvalue⟩, hvalues⟩ := List.forall_mem_cons.1 hvalues
    obtain ⟨texts, trees, htexts, hrow, hvalid, hpairs⟩ := ih hkeys hvalues
    have hspelled : Spells (keyText ++ " " ++ text).toList (keyTree.tokens ++ tree.tokens) := by
      rw [String.toList_append, String.toList_append]
      exact hkey.spelled.separated hvalue.spelled (by decide) (by decide)
    refine ⟨(keyText ++ " " ++ text) :: texts, keyTree :: tree :: trees, ?_, ?_,
      ⟨hkey.valid, hvalue.valid, hvalid⟩, ?_⟩
    · rw [entryTexts, hkey.printed, hvalue.printed, htexts]
      rfl
    · rw [tokensAll, tokensAll, ← List.append_assoc]
      exact .cons hspelled hrow
    · rw [values, values, Entries.pairUp?, hpairs, rereadEntries, hkey.denotes, hvalue.denotes]
      rfl

/-- A text between brackets spells a tree. -/
theorem spells_group (bracket : Bracket) (first last : Char)
    (hfirst : soleKind? first = some (.opening bracket))
    (hlast : soleKind? last = some (.closing bracket)) {text : String} {trees : List Tree}
    (h : Spells text.toList (tokensAll trees)) :
    Spells (String.ofList [first] ++ text ++ String.ofList [last]).toList
      (Tree.group bracket (String.ofList [first]) (String.ofList [last]) trees).tokens := by
  rw [String.toList_append, String.toList_append, String.toList_ofList, String.toList_ofList,
    List.singleton_append, List.cons_append, Tree.tokens]
  exact h.enclosed hfirst hlast

/-- Every readable value is printed as a text that spells a tree. -/
theorem Readable.exists_renders {value : Value} (h : Readable value) :
    ∃ text tree, Renders scope value text tree := by
  induction h with
  | atom hne hall hread => exact renders_read hne hall hread
  | str text => exact ⟨_, _, renders_str text⟩
  | list _ ih =>
    obtain ⟨texts, trees, htexts, hrow, hvalid, hvalues⟩ := exists_itemTexts ih
    have hinner := hrow.intercalate " " (by decide) (by decide)
    refine ⟨_, _, ?_, spells_group .round '(' ')' rfl rfl hinner,
      ⟨fun h => Bracket.noConfusion h, hvalid⟩, ?_⟩
    · rw [valueText, htexts]
      rfl
    · rw [Tree.value, hvalues, reread]
      rfl
  | vector _ ih =>
    obtain ⟨texts, trees, htexts, hrow, hvalid, hvalues⟩ := exists_itemTexts ih
    have hinner := hrow.intercalate " " (by decide) (by decide)
    refine ⟨_, _, ?_, spells_group .square '[' ']' rfl rfl hinner,
      ⟨fun h => Bracket.noConfusion h, hvalid⟩, ?_⟩
    · rw [valueText, htexts]
      rfl
    · rw [Tree.value, hvalues, reread]
      rfl
  | map _ _ _ ihkeys ihvalues =>
    obtain ⟨texts, trees, htexts, hrow, hvalid, hpairs⟩ := exists_entryTexts ihkeys ihvalues
    have hinner := hrow.intercalate ", " (by decide) (by decide)
    have heven : trees.length % 2 = 0 := by
      rw [← length_values, ← Entries.pairUp?_isSome_iff, hpairs]
      rfl
    refine ⟨_, _, ?_, spells_group .curly '\x7b' '\x7d' rfl rfl hinner,
      ⟨fun _ => heven, hvalid⟩, ?_⟩
    · rw [valueText, htexts]
      rfl
    · rw [Tree.value, Bracket.collection, Entries.ofFlat, Entries.ofFlat?, hpairs, reread]
      rfl

end Value

namespace Reader

/-- A text that renders a value is read as one form. -/
theorem readText_of_renders {scope : Style → FrameId → Printer.Printed} {value : Value}
    {text : String} {tree : Tree} (h : value.Renders scope text tree) :
    readText text = ⟨[value.reread], none⟩ := by
  have hscan := h.spelled.scan_eq
  have hlex : (Lexer.scan text).failure = none := by rw [hscan]
  have hrow : (Lexer.scan text).tokens = Tree.tokensAll [tree] ++ [] := by
    rw [hscan, Tree.tokensAll, Tree.tokensAll, List.append_nil, List.append_nil]
  have hvalid : Tree.ValidAll [tree] := ⟨h.valid, trivial⟩
  rw [(readText_split hlex hvalid hrow).1 rfl, Tree.values, Tree.values, h.denotes]

/-- **Printed forms are read again.** A form of any text is printed, in any store, as a text in
which nothing is wrong and which holds one form.

* That form is the same as the printed one exactly if all numbers in the latter are plain: whole, or
  finite and written without an exponent.
* If some number is not plain, the two forms are not even equal. -/
theorem readForms_print (store : Store) {source : String} {form : Value}
    (h : form ∈ (readText source).forms) :
    ∃ text again, store.print .source form = .ok text ∧ readForms text = .ok [again] ∧
      readProgram text = .ok again ∧
      (again.Same form ↔ ∀ n ∈ form.numbers, n.Plain) ∧
      ((∃ n ∈ form.numbers, ¬ n.Plain) →
        again.equal form = false ∧ form.equal again = false) := by
  have hreadable := readable_of_mem_readText h
  have hrenders : ∃ text tree,
      form.Renders (Printer.environmentText store (store.size + 1)) text tree :=
    hreadable.exists_renders
  obtain ⟨text, tree, hrenders⟩ := hrenders
  have hread := readText_of_renders hrenders
  have hforms : readForms text = .ok [form.reread] := by rw [readForms, hread]
  have hmem : form.reread ∈ (readText text).forms := by
    rw [hread]
    exact List.mem_cons_self
  have hcomparable := hreadable.comparable
  have hagain := (readable_of_mem_readText hmem).comparable
  refine ⟨text, form.reread, hrenders.printed, hforms, ?_, ⟨?_, ?_⟩,
    Value.equal_reread_eq_false hcomparable hagain⟩
  · rw [readProgram, hforms]
    rfl
  · intro hsame n hn
    by_contra hplain
    have hequal := hsame.equal hagain hcomparable
    rw [(Value.equal_reread_eq_false hcomparable hagain ⟨n, hn, hplain⟩).1] at hequal
    cases hequal
  · intro hplain
    rw [hreadable.reread_eq hplain]
    exact Value.Same.refl form

/-- A map with a small number and a string with a quote in it comes back. One with a number that is
written with an exponent does not: its two keys fall together. -/
theorem readForms_print_map :
    (∃ form ∈ (readText "\x7b1.5 \"a\\\"b\", :k [-0.0 ()]\x7d").forms, ∃ text again,
      Store.empty.print .source form = .ok text ∧ readForms text = .ok [again] ∧
        again.Same form) ∧
    ∃ form ∈ (readText "\x7b10000000000000000.0 1, 1e+16 2\x7d").forms, ∃ text again,
      Store.empty.print .source form = .ok text ∧ readForms text = .ok [again] ∧
        ¬ again.Same form ∧ again.equal form = false := by
  constructor
  · have hforms : ∃ form ∈ (readText "\x7b1.5 \"a\\\"b\", :k [-0.0 ()]\x7d").forms,
        ∀ n ∈ form.numbers, n.Plain := by decide +kernel
    obtain ⟨form, hmem, hplain⟩ := hforms
    obtain ⟨text, again, hprint, hread, -, hsame, -⟩ := readForms_print Store.empty hmem
    exact ⟨form, hmem, text, again, hprint, hread, hsame.2 hplain⟩
  · have hforms : ∃ form ∈ (readText "\x7b10000000000000000.0 1, 1e+16 2\x7d").forms,
        ∃ n ∈ form.numbers, ¬ n.Plain := by decide +kernel
    obtain ⟨form, hmem, n, hn, hplain⟩ := hforms
    obtain ⟨text, again, hprint, hread, -, hsame, hunequal⟩ := readForms_print Store.empty hmem
    exact ⟨form, hmem, text, again, hprint, hread, fun hagain => hplain (hsame.1 hagain n hn),
      (hunequal ⟨n, hn, hplain⟩).1⟩

end Reader

end SmallLisp
