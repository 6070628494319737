import SmallLisp.Store
import SmallLisp.Text.Escape
import SmallLisp.Text.Literal

/-!
# Printing

A value is printed in one of three styles:

* `source`: the text that reads back as the value, callables and scopes apart.
* `inspect`: how a message refers to a value. A leaf is shown so that its kind can be told: a symbol
  as `Symbol('x')`, a string as a literal, `nil` as `None`.
* `display`: the bare text of a leaf, with neither quotes nor kind.

The styles differ on leaves and scopes only: what stands inside a collection is always printed as
source. A function shows its parameters, a host function its name, a transformer its target.

A scope prints what its frames bind. As source and in display it is its innermost frame, followed
by an arrow if there is another one around it; inspected it is the whole chain. The values in a
frame are inspected in turn, and since a frame can bind a scope, this need not come to an end: a
root may bind its own scope. `environmentText` therefore takes a bound on how deeply scopes are
printed within scopes. A nesting of more than `Store.size + 1` scopes prints some scope within
itself, so a bound of that size stops only what would never end.
-/

namespace SmallLisp

/-- How a value is printed. -/
inductive Style
  | source | inspect | display
deriving DecidableEq, Repr

/-- Why a value has no text. -/
inductive PrintError
  /-- A whole number has too many digits. -/
  | longNumeral
  /-- A scope binds a scope that binds itself. -/
  | circular
deriving DecidableEq, Repr

namespace Printer

/-- The text or the reason why there is none. -/
abbrev Printed := Except PrintError String

/-- A string as it is written in a source text. -/
def quoted (text : String) : String :=
  String.ofList ('"' :: Text.escape text.toList ++ ['"'])

/-- The text of a leaf; the other values have none here. -/
def leafText : Style → Value → String
  | .source, .nil => "nil"
  | _, .nil => "None"
  | .source, .bool b => if b then "true" else "false"
  | _, .bool b => if b then "True" else "False"
  | .source, .str text => quoted text
  | .inspect, .str text => Text.literal text
  | .display, .str text => text
  | .inspect, .symbol name => s!"Symbol({Text.literal name})"
  | _, .symbol name => name
  | .inspect, .keyword name => s!"Keyword({Text.literal name})"
  | _, .keyword name => ":" ++ name
  | _, .host _ operation => s!"#<host {operation.name}>"
  | _, _ => ""

mutual

/-- The text of a value, given the text of a scope. -/
def valueText (scope : Style → FrameId → Printed) : Style → Value → Printed
  | _, .number n =>
    match n.text? with
    | some text => .ok text
    | none => .error .longNumeral
  | _, .list items => do
    let texts ← itemTexts scope items
    return "(" ++ " ".intercalate texts ++ ")"
  | _, .vector items => do
    let texts ← itemTexts scope items
    return "[" ++ " ".intercalate texts ++ "]"
  | _, .map entries => do
    let texts ← entryTexts scope entries
    return "\x7b" ++ ", ".intercalate texts ++ "\x7d"
  | _, .function _ params _ _ => do
    let text ← valueText scope .source params
    return "#<fn " ++ text ++ ">"
  | _, .transformer _ target => do
    let text ← valueText scope .inspect target
    return "#<macro " ++ text ++ ">"
  | style, .environment frame => scope style frame
  | style, leaf => .ok (leafText style leaf)

/-- The texts of the items of a collection. -/
def itemTexts (scope : Style → FrameId → Printed) : List Value → Except PrintError (List String)
  | [] => .ok []
  | item :: items => do
    let text ← valueText scope .source item
    let texts ← itemTexts scope items
    return text :: texts

/-- The texts of the entries of a map. -/
def entryTexts (scope : Style → FrameId → Printed) : Entries → Except PrintError (List String)
  | [] => .ok []
  | (key, value) :: entries => do
    let keyText ← valueText scope .source key
    let text ← valueText scope .source value
    let texts ← entryTexts scope entries
    return (keyText ++ " " ++ text) :: texts

end

/-- What one frame binds. -/
def varsText (scope : Style → FrameId → Printed) (vars : List (String × Value)) : Printed := do
  let texts ← vars.mapM fun (name, value) => do
    let text ← valueText scope .inspect value
    return name ++ ": " ++ text
  return "\x7b" ++ ", ".intercalate texts ++ "\x7d"

/-- The text of a scope, with at most so many scopes printed within one another. -/
def environmentText (store : Store) : Nat → Style → FrameId → Printed
  | 0, _, _ => .error .circular
  | depth + 1, style, id => do
    let frameText (frame : FrameId) : Printed :=
      varsText (environmentText store depth) ((store.frame? frame).map (·.vars) |>.getD [])
    match style with
    | .inspect =>
      let texts ← (store.chain id).mapM frameText
      return "<Environment chain: " ++ " -> ".intercalate texts ++ ">"
    | _ =>
      let text ← frameText id
      return if store.isRoot id then text else text ++ " -> ..."

end Printer

/-- The text of a value in a store. -/
def Store.print (store : Store) (style : Style) (value : Value) : Printer.Printed :=
  Printer.valueText (Printer.environmentText store (store.size + 1)) style value

end SmallLisp
