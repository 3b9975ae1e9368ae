import HyprShelld.Desired.Serialize

/-! Lua text of JSON values, and the statements of a generated module. -/
namespace HyprShelld.Compositor
open Hyprland

/-- The bytes of a literal of the source. -/
def bytes (s : String) : QByteArray := utf8 s.toList

def hexDigit (n : Nat) : UInt8 := UInt8.ofNat (if n < 10 then 0x30 + n else 0x57 + n)

def luaStringByte (byte : UInt8) : QByteArray :=
  if byte = 0x5c ∨ byte = 0x22 then [0x5c, byte]
  else if byte = 0x0a then bytes "\\n"
  else if byte = 0x0d then bytes "\\r"
  else if byte = 0x09 then bytes "\\t"
  -- of a fixed width, so that following hex digits are not consumed
  else if byte < 0x20 ∨ byte = 0x7f then
    bytes "\\x" ++ [hexDigit (byte.toNat / 16), hexDigit (byte.toNat % 16)]
  else [byte]

def luaString (value : QString) : QByteArray :=
  bytes "\"" ++ (toUtf8 value).flatMap luaStringByte ++ bytes "\""

/-- `^[A-Za-z_][A-Za-z0-9_]*$` -/
def luaName : Pattern :=
  .sequence (.charset [('A', 'Z'), ('a', 'z'), ('_', '_')] 1 (some 1))
    (.charset [('A', 'Z'), ('a', 'z'), ('0', '9'), ('_', '_')] 0 none)

def reservedWords : List QString :=
  ["and", "break", "do", "else", "elseif", "end", "false", "for", "function", "goto", "if", "in", "local",
    "nil", "not", "or", "repeat", "return", "then", "true", "until", "while"].map qstr

def luaIdentifier (value : QString) : Bool := hasMatch luaName value && !reservedWords.contains value

/-- QString::number of a signed integer. -/
def signedDecimal (n : Int) : QString := if n < 0 then unit '-' :: decimal n.natAbs else decimal n.natAbs

variable (p : Platform)

/-- QByteArray::replace("e+", "e"). -/
def dropExponentPlus : QByteArray → QByteArray
  | 0x65 :: 0x2b :: rest => 0x65 :: dropExponentPlus rest
  | byte :: rest => byte :: dropExponentPlus rest
  | [] => []

/-- The upper bound of the test is the double nearest to the largest qint64, which is larger than it. -/
def luaNumber (number : Double) : QByteArray :=
  match number with
  | .finite q =>
    if q.den = 1 ∧ -2 ^ 63 ≤ q ∧ q ≤ 2 ^ 63 then toUtf8 (signedDecimal (p.toInt64 q))
    else dropExponentPlus (p.generalNumber number)
  | .infinity _ | .nan => dropExponentPlus (p.generalNumber number)

def luaKey (key : QString) : QByteArray :=
  if luaIdentifier key then toUtf8 key else bytes "[" ++ luaString key ++ bytes "]"

/-- A brace is text here. -/
def braced (items : List QByteArray) : QByteArray := [0x7b] ++ (bytes ", ").intercalate items ++ [0x7d]

mutual
def luaValue : QJsonValue → QByteArray
  | .bool b => if b then bytes "true" else bytes "false"
  | .double d => luaNumber p d
  | .string s => luaString s
  | .array items => braced (luaItems items)
  | .object entries => braced (luaMembers entries)
  | .undefined | .null => bytes "nil"

def luaItems : List QJsonValue → List QByteArray
  | [] => []
  | item :: rest => luaValue item :: luaItems rest

def luaMembers : List (QString × QJsonValue) → List QByteArray
  | [] => []
  | (key, v) :: rest => (luaKey key ++ bytes " = " ++ luaValue v) :: luaMembers rest
end

def luaObject (object : QJsonObject) : QByteArray := luaValue p (.object object)

/-- A call of a Lua function on rendered arguments. -/
structure LuaCall where
  function : String
  arguments : List QByteArray
  deriving DecidableEq

def LuaCall.text (call : LuaCall) : QByteArray :=
  bytes call.function ++ bytes "(" ++ (bytes ", ").intercalate call.arguments ++ bytes ")"

/-- What a module consists of; the definition of a submap carries the calls of its body. -/
inductive LuaStatement where
  | comment (text : String)
  | call (luaCall : LuaCall)
  | defineSubmap (name reset : QString) (body : List LuaCall)
  deriving DecidableEq

/-- A statement takes its own lines. -/
def appendStatement (body statement : QByteArray) : QByteArray :=
  body ++ (if statement.getLast? = some 0x0a then statement else statement ++ [0x0a])

def LuaStatement.text : LuaStatement → QByteArray
  | .comment text => bytes text
  | .call luaCall => luaCall.text
  | .defineSubmap name reset body =>
    bytes "hl.define_submap(" ++ luaString name ++ bytes ", " ++
      (if reset.isEmpty then [] else luaString reset ++ bytes ", ") ++ bytes "function()\n" ++
      (body.map LuaCall.text).foldl appendStatement [] ++ bytes "end)"

def moduleText (statements : List LuaStatement) : QByteArray :=
  (statements.map LuaStatement.text).foldl appendStatement []

end HyprShelld.Compositor
