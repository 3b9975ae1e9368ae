import HyprShelld.Json.Object
import HyprShelld.Json.Number
import HyprShelld.Text.Decimal

/-! A strict JSON reader over UTF-16 text. The two readers of the source share this
grammar; a dialect says how each words its errors, checks its strings, reads a
number and which limits it keeps. -/
namespace HyprShelld.Json

inductive Fault where
  | rootObjectRequired | trailingData | unexpectedEnd | invalidToken | invalidLiteral
  | depthLimit | valueLimit | objectKeyRequired | duplicateKey (key : QString) | colonRequired
  | objectSeparatorRequired | arraySeparatorRequired | unescapedControl | loneHighSurrogate
  | loneLowSurrogate | loneLowEscape | unpairedEscape | shortUnicodeEscape | nonHexUnicodeEscape
  | invalidEscape | unterminatedString | invalidNumber | unreadableNumber | lossyNumber
  deriving DecidableEq

structure Dialect (ε : Type) where
  /-- The error for a fault at a path, with the position reached. -/
  fault : Fault → QString → Nat → ε
  checkText : QString → QString → Except ε Unit
  number : QString → Except Fault ℚ
  maximumDepth : Int
  maximumValues : Option Int

/-- The text not yet read, how much was read, and the values counted. -/
structure Cursor where
  rest : QString
  position : Nat
  valueCount : Nat
  deriving DecidableEq

namespace Cursor

def advance (c : Cursor) (n : Nat) : Cursor := { c with rest := c.rest.drop n, position := c.position + n }

def isWhitespace (u : UInt16) : Bool := u = 0x20 || u = 0x09 || u = 0x0d || u = 0x0a

def skipWhitespace (c : Cursor) : Cursor :=
  { c with
    rest := c.rest.dropWhile isWhitespace
    position := c.position + (c.rest.takeWhile isWhitespace).length }

/-- Not at the end, and the current unit is this one. -/
def sees (c : Cursor) (u : UInt16) : Bool := c.rest.head? == some u

theorem sees_cons (u w : UInt16) (rest : QString) (position count : Nat) :
    sees ⟨u :: rest, position, count⟩ w = (u == w) := rfl

end Cursor

def childPath (parent key : QString) : QString := parent ++ unit '.' :: key
def elementPath (parent : QString) (index : Nat) : QString :=
  parent ++ unit '[' :: (decimal index ++ [unit ']'])

def hexValue (u : UInt16) : Option Nat :=
  if 0x30 ≤ u.toNat ∧ u.toNat ≤ 0x39 then some (u.toNat - 0x30)
  else if 0x61 ≤ u.toNat ∧ u.toNat ≤ 0x66 then some (u.toNat - 0x57)
  else if 0x41 ≤ u.toNat ∧ u.toNat ≤ 0x46 then some (u.toNat - 0x37)
  else none

/-- Fold digits from a position; a failure says how far the reader got. -/
def hexDigits (value position : Nat) : QString → Except (Fault × Nat) Nat
  | [] => .ok value
  | u :: rest => match hexValue u with
    | none => .error (.nonHexUnicodeEscape, position + 1)
    | some d => hexDigits (value * 16 + d) (position + 1) rest

def readHexCodeUnit (a b c e : UInt16) (position : Nat) : Except (Fault × Nat) UInt16 :=
  (hexDigits 0 position [a, b, c, e]).map UInt16.ofNat

variable {ε : Type} (d : Dialect ε)

def Dialect.fail {α : Type} (f : Fault) (path : QString) (position : Nat) : Except ε α :=
  .error (d.fault f path position)

def countValue (path : QString) (c : Cursor) : Except ε Cursor :=
  match d.maximumValues with
  | none => .ok c
  | some m => if m ≤ c.valueCount then d.fail .valueLimit path c.position
    else .ok { c with valueCount := c.valueCount + 1 }

def simpleEscape (u : UInt16) : Option UInt16 :=
  if u = unit '"' then some (unit '"')
  else if u = unit '\\' then some (unit '\\')
  else if u = unit '/' then some (unit '/')
  else if u = unit 'b' then some 0x08
  else if u = unit 'f' then some 0x0c
  else if u = unit 'n' then some 0x0a
  else if u = unit 'r' then some 0x0d
  else if u = unit 't' then some 0x09
  else none

/-- The string after its opening quote: its value, what follows and the new position. -/
def readStringBody (path : QString) : QString → Nat → QString → Except ε (QString × QString × Nat)
  | [], position, _ => d.fail .unterminatedString path position
  | u :: rest, position, value =>
    if u = unit '"' then do
      d.checkText value path
      return (value, rest, position + 1)
    else if u.toNat < 0x20 then d.fail .unescapedControl path (position + 1)
    else if u ≠ unit '\\' then
      if isHighSurrogate u then
        match rest with
        | [] => d.fail .loneHighSurrogate path (position + 1)
        | v :: tail =>
          if isLowSurrogate v then readStringBody path tail (position + 2) (value ++ [u, v])
          else d.fail .loneHighSurrogate path (position + 1)
      else if isLowSurrogate u then d.fail .loneLowSurrogate path (position + 1)
      else readStringBody path rest (position + 1) (value ++ [u])
    else
      match rest with
      | [] => d.fail .unterminatedString path (position + 1)
      | e :: tail =>
        match simpleEscape e with
        | some w => readStringBody path tail (position + 2) (value ++ [w])
        | none =>
          if e ≠ unit 'u' then d.fail .invalidEscape path (position + 2)
          else
            match tail with
            | h₁ :: h₂ :: h₃ :: h₄ :: more =>
              match readHexCodeUnit h₁ h₂ h₃ h₄ (position + 2) with
              | .error (f, p) => d.fail f path p
              | .ok high =>
                if isHighSurrogate high then
                  match more with
                  | b :: w :: pair =>
                    if b = unit '\\' ∧ w = unit 'u' then
                      match pair with
                      | l₁ :: l₂ :: l₃ :: l₄ :: tail =>
                        match readHexCodeUnit l₁ l₂ l₃ l₄ (position + 8) with
                        | .error (f, p) => d.fail f path p
                        | .ok low =>
                          if isLowSurrogate low then
                            readStringBody path tail (position + 12) (value ++ [high, low])
                          else d.fail .unpairedEscape path (position + 12)
                      | _ => d.fail .shortUnicodeEscape path (position + 8)
                    else d.fail .unpairedEscape path (position + 6)
                  | _ => d.fail .unpairedEscape path (position + 6)
                else if isLowSurrogate high then d.fail .loneLowEscape path (position + 6)
                else readStringBody path more (position + 6) (value ++ [high])
            | _ => d.fail .shortUnicodeEscape path (position + 2)

/-- A string from its opening quote. -/
def readString (path : QString) (c : Cursor) : Except ε (QString × Cursor) := do
  let (value, rest, position) ← readStringBody d path (c.rest.drop 1) (c.position + 1) []
  return (value, { c with rest := rest, position := position })

def readLiteral (path literal : QString) (value : QJsonValue) (c : Cursor) :
    Except ε (QJsonValue × Cursor) :=
  if literal.isPrefixOf c.rest then .ok (value, c.advance literal.length)
  else d.fail .invalidLiteral path c.position

def readNumber (path : QString) (c : Cursor) : Except ε (QJsonValue × Cursor) :=
  match scanNumber c.rest with
  | .error consumed => d.fail .invalidNumber path (c.position + consumed)
  | .ok (lexeme, _) =>
    match d.number lexeme with
    | .error f => d.fail f path (c.position + lexeme.length)
    | .ok q => .ok (.double (.finite q), c.advance lexeme.length)

mutual
/-- The fuel bounds nested and repeated calls; three for each unit of text suffice. -/
def readValue : Nat → QString → Nat → Cursor → Except ε (QJsonValue × Cursor)
  | 0, path, _, c => d.fail .unexpectedEnd path c.position
  | fuel + 1, path, depth, c => do
    let c ← countValue d path c
    let c := c.skipWhitespace
    match c.rest with
    | [] => d.fail .unexpectedEnd path c.position
    | u :: _ =>
      if u = unit '{' then do
        let (o, c) ← readObject fuel path depth c
        return (.object o, c)
      else if u = unit '[' then do
        let (items, c) ← readArray fuel path depth c
        return (.array items, c)
      else if u = unit '"' then do
        let (s, c) ← readString d path c
        return (.string s, c)
      else if u = unit 't' then readLiteral d path (qstr "true") (.bool true) c
      else if u = unit 'f' then readLiteral d path (qstr "false") (.bool false) c
      else if u = unit 'n' then readLiteral d path (qstr "null") .null c
      else if u = unit '-' || isDigit u then readNumber d path c
      else d.fail .invalidToken path c.position

def readObject : Nat → QString → Nat → Cursor → Except ε (QJsonObject × Cursor)
  | 0, path, _, c => d.fail .unexpectedEnd path c.position
  | fuel + 1, path, depth, c =>
    if d.maximumDepth < depth then d.fail .depthLimit path c.position
    else
      let c := (c.advance 1).skipWhitespace
      if c.sees (unit '}') then .ok ([], c.advance 1)
      else readMembers fuel path depth [] c

/-- Members from a key on; the keys seen are those of the object built so far. -/
def readMembers : Nat → QString → Nat → QJsonObject → Cursor → Except ε (QJsonObject × Cursor)
  | 0, path, _, _, c => d.fail .unexpectedEnd path c.position
  | fuel + 1, path, depth, object, c => do
    let c := c.skipWhitespace
    if !c.sees (unit '"') then d.fail .objectKeyRequired path c.position
    else
      let (key, c) ← readString d path c
      let memberPath := childPath path key
      if QJsonObject.contains object key then d.fail (.duplicateKey key) memberPath c.position
      else
        let c := c.skipWhitespace
        if !c.sees (unit ':') then d.fail .colonRequired memberPath c.position
        else
          let (v, c) ← readValue fuel memberPath (depth + 1) (c.advance 1)
          let object := QJsonObject.insert object key v
          let c := c.skipWhitespace
          if c.sees (unit '}') then .ok (object, c.advance 1)
          else if !c.sees (unit ',') then d.fail .objectSeparatorRequired path c.position
          else readMembers fuel path depth object (c.advance 1)

def readArray : Nat → QString → Nat → Cursor → Except ε (QJsonArray × Cursor)
  | 0, path, _, c => d.fail .unexpectedEnd path c.position
  | fuel + 1, path, depth, c =>
    if d.maximumDepth < depth then d.fail .depthLimit path c.position
    else
      let c := (c.advance 1).skipWhitespace
      if c.sees (unit ']') then .ok ([], c.advance 1)
      else readElements fuel path depth [] c

def readElements : Nat → QString → Nat → QJsonArray → Cursor → Except ε (QJsonArray × Cursor)
  | 0, path, _, _, c => d.fail .unexpectedEnd path c.position
  | fuel + 1, path, depth, items, c => do
    let (v, c) ← readValue fuel (elementPath path items.length) (depth + 1) c
    let items := items ++ [v]
    let c := c.skipWhitespace
    if c.sees (unit ']') then .ok (items, c.advance 1)
    else if !c.sees (unit ',') then d.fail .arraySeparatorRequired path c.position
    else readElements fuel path depth items (c.advance 1)
end

/-- A whole document with an object at its root. -/
def readDocument (text : QString) : Except ε QJsonObject := do
  let path := qstr "$"
  let c := Cursor.skipWhitespace ⟨text, 0, 0⟩
  if !c.sees (unit '{') then d.fail .rootObjectRequired path c.position
  else
    let c ← countValue d path c
    let (object, c) ← readObject d (3 * text.length + 4) path 1 c
    let c := c.skipWhitespace
    if c.rest ≠ [] then d.fail .trailingData path c.position else return object

end HyprShelld.Json
