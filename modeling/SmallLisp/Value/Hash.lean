import SmallLisp.Value.Equality

/-!
# Hashes of values

A hash is a digest that equal values share. So it reads no more of a value than equality does: a
list and a vector are digested alike, as the row of their items, a number by its place on the line,
a callable by its serial number, and a map as the set of its entries.

How a leaf, a row and a set are digested is the host's affair (`Hasher`). What this file says is
which of them a value is made of, and that a truth value, when it is a key, is told from a number,
which a host may digest alike.

* `Value.digest`: the hash of a value under a hasher.
* `Value.keyDigest`: the hash under which a map files a key.
* `Hasher.standard`, `Value.hash`: one hasher, and the hash under it.
-/

namespace SmallLisp

/-- How the host digests what values are made of. -/
structure Hasher where
  /-- The digest of `nil`. -/
  nil : UInt64
  /-- The digest of a truth value. -/
  bool : Bool → UInt64
  /-- The digest of a number. -/
  number : Number → UInt64
  /-- The digest of a text. -/
  text : String → UInt64
  /-- The digest of a callable with that serial number. -/
  callable : Nat → UInt64
  /-- The digest of a scope. -/
  scope : FrameId → UInt64
  /-- The digest of a row, out of the digests of its items. -/
  row : List UInt64 → UInt64
  /-- The digest of a set, out of the digests of its members, listed in any order. -/
  set : List UInt64 → UInt64

/-- The digest of a key, out of its digest as a value. -/
def Hasher.key (hasher : Hasher) (key : Value) (digest : UInt64) : UInt64 :=
  match key with
  | .bool b => hasher.row [hasher.text "bool", hasher.bool b]
  | _ => digest

namespace Value

mutual

/-- The digest of a value. -/
def digest (hasher : Hasher) : Value → UInt64
  | .nil => hasher.nil
  | .bool b => hasher.bool b
  | .number n => hasher.number n
  | .str text => hasher.text text
  | .symbol name => hasher.text name
  | .keyword name => hasher.row [hasher.text ":", hasher.text name]
  | .list items => hasher.row (digestAll hasher items)
  | .vector items => hasher.row (digestAll hasher items)
  | .map entries => hasher.set (digestEntries hasher entries)
  | .function serial _ _ _ => hasher.callable serial
  | .host serial _ => hasher.callable serial
  | .transformer serial _ => hasher.callable serial
  | .environment frame => hasher.scope frame

/-- The digests of values. -/
def digestAll (hasher : Hasher) : List Value → List UInt64
  | [] => []
  | item :: items => item.digest hasher :: digestAll hasher items

/-- The digests of the entries of a map, each the row of its key and its value. -/
def digestEntries (hasher : Hasher) : Entries → List UInt64
  | [] => []
  | (key, value) :: entries =>
    hasher.row [hasher.key key (key.digest hasher), value.digest hasher] ::
      digestEntries hasher entries

end

/-- The digest under which a map files a key. -/
def keyDigest (hasher : Hasher) (key : Value) : UInt64 :=
  hasher.key key (key.digest hasher)

end Value

/-! ## A hasher -/

/-- Mixes a further word into a digest. -/
def mixWord (digest word : UInt64) : UInt64 :=
  digest * 1000003 + word

/-- The digest of a text. -/
def hashText (text : String) : UInt64 :=
  text.toList.foldl (fun digest c => mixWord digest c.toNat.toUInt64) 7

/-- The digest of a whole number. -/
def hashInt (n : Int) : UInt64 :=
  mixWord n.natAbs.toUInt64 (if n < 0 then 1 else 0)

/-- The digest of a number: of its whole part and of what is left, in units. -/
def Number.hash (n : Number) : UInt64 :=
  match n.level? with
  | none => 3
  | some .lowest => 4
  | some .highest => 5
  | some (.units u) => mixWord (hashInt (u / Binary64.one)) (hashInt (u % Binary64.one))

/-- A hasher that mixes words, and sums them up where their order must not matter. -/
def Hasher.standard : Hasher where
  nil := 11
  bool b := if b then 13 else 17
  number := Number.hash
  text := hashText
  callable serial := mixWord 41 serial.toUInt64
  scope frame := mixWord 53 frame.toUInt64
  row words := words.foldl mixWord 31
  set words := mixWord 37 (words.foldr (· + ·) 0)

/-- The hash of a value under the standard hasher. -/
def Value.hash (value : Value) : UInt64 :=
  value.digest .standard

end SmallLisp
