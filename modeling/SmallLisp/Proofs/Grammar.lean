import SmallLisp.Form.Reader

/-!
# The grammar of forms

The reader keeps a stack of open constructs and never speaks of a grammar. This file gives the
grammar apart from the reader, as derivation trees, and says what a tree denotes:

* `Tree`: how a row of tokens is put together to one form. A tree holds the texts of its tokens, so
  that `Tree.tokens` gives the tokens back.
* `Tree.Valid`: the tree obeys the grammar. A whole number has no more digits than are read, a
  string has no escapes beside those of the quote and the backslash, and the trees between curly
  brackets are even in number.
* `Tree.value`: the form that the tree denotes.
* `Tree.tokens_append_inj`: no row of tokens begins with two different trees. So a derivation is
  unique, and no tree is the beginning of another one.
* `Tree.Derives tokens trees`: the valid trees make up the row of tokens; `Tree.Stuck tokens`: the
  row is not empty and begins with no valid tree. Every row is in exactly one way a derived one with
  nothing or something stuck behind it (`Tree.exists_split`, `Tree.split_unique`).
-/

namespace SmallLisp

/-! ## Leaves -/

namespace Atom

/-- The text is a whole number with more digits than are read. -/
def TooLong (text : String) : Prop :=
  ∃ digits, (withoutNewline text.toList = digits ∨ withoutNewline text.toList = '-' :: digits) ∧
    isNumeral digits = true ∧ Numeral.maxDigits < digits.length

/-- The value that an atom denotes, if it is not too long. -/
def value (text : String) : Value :=
  (read text).toOption.getD .nil

end Atom

namespace Text

/-- The only escapes are those of the quote and the backslash. -/
inductive Escaped : List Char → Prop
  /-- Nothing at all. -/
  | nil : Escaped []
  /-- A character that stands for itself. -/
  | plain {c : Char} {cs : List Char} (backslash : c ≠ '\\') : Escaped cs → Escaped (c :: cs)
  /-- A quote or a backslash behind a backslash. -/
  | pair {c : Char} {cs : List Char} (known : c = '"' ∨ c = '\\') :
      Escaped cs → Escaped ('\\' :: c :: cs)

/-- The characters that escaped ones stand for. -/
def unescaped (cs : List Char) : List Char :=
  (unescape cs).toOption.getD []

end Text

/-- The map of keys and values in alternation, if their number is even. -/
def Entries.ofFlat (flat : List Value) : Entries :=
  (Entries.ofFlat? flat).getD []

/-- The collection written between brackets of that kind. -/
def Bracket.collection : Bracket → List Value → Value
  | .round, items => .list items
  | .square, items => .vector items
  | .curly, items => .map (Entries.ofFlat items)

/-! ## Trees -/

/-- How a row of tokens is put together to one form. -/
inductive Tree
  /-- A symbol, keyword, number or literal. -/
  | atom (text : String)
  /-- A string with its quotes. -/
  | string (text : String)
  /-- A remark. -/
  | remark (text : String)
  /-- A form behind a quotation mark. -/
  | quoted (mark : String) (tree : Tree)
  /-- Forms between two brackets of one kind. -/
  | group (bracket : Bracket) (opening closing : String) (trees : List Tree)
deriving Repr

namespace Tree

mutual

/-- The tokens of a tree, from left to right. -/
def tokens : Tree → List Token
  | .atom text => [⟨.atom, text⟩]
  | .string text => [⟨.string, text⟩]
  | .remark text => [⟨.comment, text⟩]
  | .quoted mark tree => ⟨.quote, mark⟩ :: tree.tokens
  | .group bracket opening closing trees =>
    ⟨.opening bracket, opening⟩ :: (tokensAll trees ++ [⟨.closing bracket, closing⟩])

/-- The tokens of several trees. -/
def tokensAll : List Tree → List Token
  | [] => []
  | tree :: trees => tree.tokens ++ tokensAll trees

end

mutual

/-- The tree obeys the grammar. -/
def Valid : Tree → Prop
  | .atom text => ¬ Atom.TooLong text
  | .string text => Text.Escaped text.toList.tail.dropLast
  | .remark _ => True
  | .quoted _ tree => tree.Valid
  | .group bracket _ _ trees => (bracket = .curly → trees.length % 2 = 0) ∧ ValidAll trees

/-- Several trees obey the grammar. -/
def ValidAll : List Tree → Prop
  | [] => True
  | tree :: trees => tree.Valid ∧ ValidAll trees

end

mutual

/-- The form that a tree denotes. -/
def value : Tree → Value
  | .atom text => Atom.value text
  | .string text => .str (String.ofList (Text.unescaped text.toList.tail.dropLast))
  | .remark text => .list [.symbol "comment", .str (String.ofList text.toList.tail)]
  | .quoted _ tree => .list [.symbol "quote", tree.value]
  | .group bracket _ _ trees => bracket.collection (values trees)

/-- The forms that several trees denote. -/
def values : List Tree → List Value
  | [] => []
  | tree :: trees => tree.value :: values trees

end

theorem tokensAll_eq (trees : List Tree) : tokensAll trees = trees.flatMap tokens := by
  induction trees with
  | nil => rfl
  | cons tree trees ih => rw [tokensAll, ih, List.flatMap_cons]

theorem tokensAll_append (as bs : List Tree) :
    tokensAll (as ++ bs) = tokensAll as ++ tokensAll bs := by
  rw [tokensAll_eq, tokensAll_eq, tokensAll_eq, List.flatMap_append]

theorem validAll_append (as bs : List Tree) :
    ValidAll (as ++ bs) ↔ ValidAll as ∧ ValidAll bs := by
  induction as with
  | nil => simp [ValidAll]
  | cons tree as ih => simp [ValidAll, ih, and_assoc]

theorem values_eq (trees : List Tree) : values trees = trees.map value := by
  induction trees with
  | nil => rfl
  | cons tree trees ih => rw [values, ih, List.map_cons]

theorem values_append (as bs : List Tree) : values (as ++ bs) = values as ++ values bs := by
  rw [values_eq, values_eq, values_eq, List.map_append]

@[simp] theorem length_values (trees : List Tree) : (values trees).length = trees.length := by
  rw [values_eq, List.length_map]

/-! ## A derivation is unique -/

/-- The first token of a tree is not a closing bracket. -/
theorem tokens_ne_closing (tree : Tree) (bracket : Bracket) (text : String)
    (rest more : List Token) : tree.tokens ++ rest ≠ ⟨.closing bracket, text⟩ :: more := by
  cases tree <;> simp [tokens]

/-- A tree has at least one token. -/
theorem tokens_ne_nil (tree : Tree) : tree.tokens ≠ [] := by
  intro h
  refine tree.tokens_ne_closing .round "" [⟨.closing .round, ""⟩] [] ?_
  rw [h, List.nil_append]

mutual

/-- A row of tokens begins with at most one tree. -/
theorem tokens_append_inj : ∀ (a b : Tree) {r s : List Token},
    a.tokens ++ r = b.tokens ++ s → a = b ∧ r = s
  | .atom _, b, r, s, h => by
    cases b <;> simp_all [tokens]
  | .string _, b, r, s, h => by
    cases b <;> simp_all [tokens]
  | .remark _, b, r, s, h => by
    cases b <;> simp_all [tokens]
  | .quoted mark a, b, r, s, h => by
    cases b with
    | quoted mark' b =>
      simp only [tokens, List.cons_append, List.cons.injEq, Token.mk.injEq, true_and] at h
      obtain ⟨hmark, htokens⟩ := h
      obtain ⟨hab, hrs⟩ := tokens_append_inj a b htokens
      exact ⟨by rw [hmark, hab], hrs⟩
    | atom | string | remark | group => simp [tokens] at h
  | .group bracket o c as, b, r, s, h => by
    cases b with
    | group bracket' o' c' bs =>
      simp only [tokens, List.cons_append, List.append_assoc, List.cons.injEq, Token.mk.injEq,
        TokenKind.opening.injEq] at h
      obtain ⟨⟨hbracket, ho⟩, htokens⟩ := h
      obtain ⟨hab, hc, hrs⟩ := tokensAll_closing_inj as bs htokens
      exact ⟨by rw [hbracket, ho, hab, hc], hrs⟩
    | atom | string | remark | quoted => simp [tokens] at h

/-- A row of tokens begins in at most one way with trees and a closing bracket behind them. -/
theorem tokensAll_closing_inj : ∀ (as bs : List Tree) {x y : Bracket} {c d : String}
    {r s : List Token},
    tokensAll as ++ ⟨.closing x, c⟩ :: r = tokensAll bs ++ ⟨.closing y, d⟩ :: s →
      as = bs ∧ c = d ∧ r = s
  | [], [], x, y, c, d, r, s, h => by
    simp only [tokensAll, List.nil_append, List.cons.injEq, Token.mk.injEq] at h
    exact ⟨rfl, h.1.2, h.2⟩
  | [], b :: bs, x, y, c, d, r, s, h => by
    simp only [tokensAll, List.nil_append, List.append_assoc] at h
    exact absurd h.symm (tokens_ne_closing b x c _ r)
  | a :: as, [], x, y, c, d, r, s, h => by
    simp only [tokensAll, List.nil_append, List.append_assoc] at h
    exact absurd h (tokens_ne_closing a y d _ s)
  | a :: as, b :: bs, x, y, c, d, r, s, h => by
    simp only [tokensAll, List.append_assoc] at h
    obtain ⟨hab, htokens⟩ := tokens_append_inj a b h
    obtain ⟨habs, hc, hrs⟩ := tokensAll_closing_inj as bs htokens
    exact ⟨by rw [hab, habs], hc, hrs⟩

end

/-- A row of trees is known by its tokens. -/
theorem tokensAll_inj : ∀ {as bs : List Tree}, tokensAll as = tokensAll bs → as = bs
  | [], [], _ => rfl
  | [], b :: bs, h => by
    exact absurd (List.append_eq_nil_iff.1 h.symm).1 b.tokens_ne_nil
  | a :: as, [], h => by
    exact absurd (List.append_eq_nil_iff.1 h).1 a.tokens_ne_nil
  | a :: as, b :: bs, h => by
    obtain ⟨hab, htokens⟩ := tokens_append_inj a b h
    rw [hab, tokensAll_inj htokens]

/-! ## Splitting a row of tokens -/

/-- The valid trees make up the row of tokens. -/
def Derives (row : List Token) (trees : List Tree) : Prop :=
  ValidAll trees ∧ tokensAll trees = row

/-- There are tokens, and they begin with no valid tree. -/
def Stuck (row : List Token) : Prop :=
  row ≠ [] ∧ ∀ tree : Tree, tree.Valid → ¬ tree.tokens <+: row

/-- A row has at most one derivation. -/
theorem Derives.unique {row : List Token} {as bs : List Tree} (ha : Derives row as)
    (hb : Derives row bs) : as = bs :=
  tokensAll_inj (ha.2.trans hb.2.symm)

/-- Every row of tokens is derived up to a point where it ends or is stuck. -/
theorem exists_split (row : List Token) :
    ∃ (trees : List Tree) (rest : List Token), ValidAll trees ∧ row = tokensAll trees ++ rest ∧
      (rest = [] ∨ Stuck rest) := by
  by_cases hstart : ∃ (tree : Tree) (rest : List Token), tree.Valid ∧ row = tree.tokens ++ rest
  · obtain ⟨tree, rest, hvalid, hrow⟩ := hstart
    have hpos := List.length_pos_iff.2 tree.tokens_ne_nil
    have hlt : rest.length < row.length := by
      rw [hrow, List.length_append]
      omega
    obtain ⟨trees, left, hvalids, hrest, hleft⟩ := exists_split rest
    refine ⟨tree :: trees, left, ⟨hvalid, hvalids⟩, ?_, hleft⟩
    rw [hrow, hrest, tokensAll, List.append_assoc]
  · refine ⟨[], row, trivial, rfl, ?_⟩
    by_cases hnil : row = []
    · exact .inl hnil
    · refine .inr ⟨hnil, ?_⟩
      rintro tree hvalid ⟨rest, hrest⟩
      exact hstart ⟨tree, rest, hvalid, hrest.symm⟩
termination_by row.length

/-- The point up to which a row is derived is unique. -/
theorem split_unique : ∀ {as bs : List Tree} {r s : List Token}, ValidAll as → ValidAll bs →
    Stuck r → Stuck s → tokensAll as ++ r = tokensAll bs ++ s → as = bs ∧ r = s
  | [], [], r, s, _, _, _, _, h => ⟨rfl, h⟩
  | [], b :: bs, r, s, _, hb, hr, _, h => by
    refine absurd ⟨tokensAll bs ++ s, ?_⟩ (hr.2 b hb.1)
    simpa [tokensAll] using h.symm
  | a :: as, [], r, s, ha, _, _, hs, h => by
    refine absurd ⟨tokensAll as ++ r, ?_⟩ (hs.2 a ha.1)
    simpa [tokensAll] using h
  | a :: as, b :: bs, r, s, ha, hb, hr, hs, h => by
    simp only [tokensAll, List.append_assoc] at h
    obtain ⟨hab, htokens⟩ := tokens_append_inj a b h
    obtain ⟨habs, hrs⟩ := split_unique ha.2 hb.2 hr hs htokens
    exact ⟨by rw [hab, habs], hrs⟩

end Tree

end SmallLisp
