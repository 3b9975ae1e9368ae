import HyprShelld.Json.Value

/-! Compact JSON text. Both writers of the source emit it and differ only in how
they print a number. -/
namespace HyprShelld

def lowerHex (n : Nat) : UInt16 := if n < 10 then UInt16.ofNat (0x30 + n) else UInt16.ofNat (0x57 + n)

def unicodeEscape (u : UInt16) : QString :=
  [unit '\\', unit 'u', lowerHex (u.toNat / 0x1000), lowerHex (u.toNat / 0x100 % 0x10),
    lowerHex (u.toNat / 0x10 % 0x10), lowerHex (u.toNat % 0x10)]

/-- A unit that is no surrogate, inside a string. -/
def escapeUnit (u : UInt16) : QString :=
  if u = 0x08 then [unit '\\', unit 'b']
  else if u = 0x09 then [unit '\\', unit 't']
  else if u = 0x0a then [unit '\\', unit 'n']
  else if u = 0x0c then [unit '\\', unit 'f']
  else if u = 0x0d then [unit '\\', unit 'r']
  else if u = unit '"' then [unit '\\', unit '"']
  else if u = unit '\\' then [unit '\\', unit '\\']
  else if u.toNat < 0x20 then unicodeEscape u
  else [u]

/-- Lone surrogates have no UTF-8 form and are escaped. -/
def escape : QString → QString
  | [] => []
  | u :: rest =>
    if isHighSurrogate u then
      match rest with
      | [] => unicodeEscape u
      | v :: tail =>
        if isLowSurrogate v then u :: v :: escape tail else unicodeEscape u ++ escape (v :: tail)
    else if isLowSurrogate u then unicodeEscape u ++ escape rest
    else escapeUnit u ++ escape rest

def renderString (s : QString) : QString := unit '"' :: (escape s ++ [unit '"'])

mutual
def render (number : Double → QString) : QJsonValue → QString
  | .undefined | .null => qstr "null"
  | .bool b => if b then qstr "true" else qstr "false"
  | .double d => number d
  | .string s => renderString s
  | .array items => unit '[' :: (renderItems number items ++ [unit ']'])
  | .object entries => unit '{' :: (renderMembers number entries ++ [unit '}'])

def renderItems (number : Double → QString) : List QJsonValue → QString
  | [] => []
  | v :: rest => render number v ++ match rest with
    | [] => []
    | _ :: _ => unit ',' :: renderItems number rest

def renderMembers (number : Double → QString) : List (QString × QJsonValue) → QString
  | [] => []
  | (k, v) :: rest => renderString k ++ unit ':' :: (render number v ++ match rest with
    | [] => []
    | _ :: _ => unit ',' :: renderMembers number rest)
end

theorem escape_single {u : UInt16} (s : QString) (hu : isHighSurrogate u = false)
    (hl : isLowSurrogate u = false) : escape (u :: s) = escapeUnit u ++ escape s := by
  rw [escape.eq_def]
  simp [hu, hl]

theorem escape_pair {u v : UInt16} (s : QString) (hu : isHighSurrogate u = true)
    (hl : isLowSurrogate v = true) : escape (u :: v :: s) = u :: v :: escape s := by
  simp [escape, hu, hl]

end HyprShelld
