import HyprShelld.Renderer.LuaLiterals

/-! Tables in generated Lua: which expression the text of a JSON value is. -/
namespace HyprShelld.Compositor
open Hyprland Lua
variable {p : Platform}

section Tables

mutual
/-- The tokens of the text of a value. -/
def jsonTokens (p : Platform) : QJsonValue → List Token
  | .bool b => [.keyword (utf8 (if b then "true" else "false").toList)]
  | .double (.finite q) => numeralTokens p q
  | .double _ => []
  | .string s => [.string (toUtf8 s)]
  | .array items => .symbol 0x7b :: itemTokens p items
  | .object entries => .symbol 0x7b :: memberTokens p entries
  | .undefined | .null => [.keyword (utf8 "nil".toList)]

def itemTokens (p : Platform) : List QJsonValue → List Token
  | [] => [.symbol 0x7d]
  | v :: rest => jsonTokens p v ++ moreItemTokens p rest

def moreItemTokens (p : Platform) : List QJsonValue → List Token
  | [] => [.symbol 0x7d]
  | v :: rest => .symbol 0x2c :: (jsonTokens p v ++ moreItemTokens p rest)

def memberTokens (p : Platform) : List (QString × QJsonValue) → List Token
  | [] => [.symbol 0x7d]
  | (key, v) :: rest => keyTokens key ++ .symbol 0x3d :: (jsonTokens p v ++ moreMemberTokens p rest)

def moreMemberTokens (p : Platform) : List (QString × QJsonValue) → List Token
  | [] => [.symbol 0x7d]
  | (key, v) :: rest =>
    .symbol 0x2c :: (keyTokens key ++ .symbol 0x3d :: (jsonTokens p v ++ moreMemberTokens p rest))
end

mutual
/-- A JSON value without null whose numbers are doubles. -/
def Renderable : QJsonValue → Prop
  | .bool _ | .string _ => True
  | .double d => ∃ q, d = .finite q ∧ IsBinary64 q
  | .array items => RenderableItems items
  | .object entries => RenderableMembers entries
  | .undefined | .null => False

def RenderableItems : List QJsonValue → Prop
  | [] => True
  | v :: rest => Renderable v ∧ RenderableItems rest

def RenderableMembers : List (QString × QJsonValue) → Prop
  | [] => True
  | (_, v) :: rest => Renderable v ∧ RenderableMembers rest
end

theorem intercalate_cons {α : Type} (separator a : List α) (rest : List (List α)) :
    separator.intercalate (a :: rest) = a ++ rest.flatMap (separator ++ ·) := by
  induction rest generalizing a with
  | nil => simp [List.intercalate]
  | cons b rest ih => rw [List.intercalate_cons_cons, ih, List.flatMap_cons, List.append_assoc, List.append_assoc]

/-- What follows an entry: the entries left, and the closing brace. -/
def moreText (items : List QByteArray) (rest : QByteArray) : QByteArray :=
  items.flatMap (bytes ", " ++ ·) ++ 0x7d :: rest

theorem braced_nil (rest : QByteArray) : braced [] ++ rest = 0x7b :: 0x7d :: rest := by simp [braced, List.intercalate]

theorem braced_cons (item : QByteArray) (items : List QByteArray) (rest : QByteArray) :
    braced (item :: items) ++ rest = 0x7b :: (item ++ moreText items rest) := by
  simp [braced, intercalate_cons, moreText]

theorem moreText_cons (item : QByteArray) (items : List QByteArray) (rest : QByteArray) :
    moreText (item :: items) rest = 0x2c :: 0x20 :: (item ++ moreText items rest) := by
  have hcomma : bytes ", " = [0x2c, 0x20] := by decide
  simp [moreText, hcomma]

theorem moreText_ends (items : List QByteArray) (rest : QByteArray) : EndsWord (moreText items rest) := by
  cases items with
  | nil => simp [moreText, EndsWord, isWord, isLetter, Lua.isDigit]
  | cons item items => rw [moreText_cons]; simp [EndsWord, isWord, isLetter, Lua.isDigit]

theorem jsonTokens_ne_nil {v : QJsonValue} (hv : Renderable v) : jsonTokens p v ≠ [] := by
  cases v with
  | double d =>
    obtain ⟨q, rfl, -⟩ := hv
    simp [jsonTokens, numeralTokens]
  | _ => simp [jsonTokens]

private theorem scans_close (rest : QByteArray) : Scans (0x7d :: rest) [.symbol 0x7d] rest :=
  .single (scanToken_symbol (by decide) (by simp [joins]))

private theorem scans_keyword (word : String) (b : UInt8) (tail : QByteArray) (hword : utf8 word.toList = b :: tail)
    (hb : isLetter b = true) (htail : ∀ c ∈ tail, isWord c = true) (hmem : isKeyword (b :: tail) = true) {rest : QByteArray}
    (hr : EndsWord rest) : Scans (utf8 word.toList ++ rest) [.keyword (utf8 word.toList)] rest := by
  have := nextToken_word hb htail (endsWord_not_word hr)
  rw [wordToken, if_pos hmem] at this
  rw [hword]
  exact .single this

section Scanning

mutual
/-- The text of a value has the tokens of the value, whatever stands behind it. -/
theorem scans_luaValue (hp : WritesSeventeenDigits p) : ∀ (v : QJsonValue) (rest : QByteArray), Renderable v → EndsWord rest →
    Scans (luaValue p v ++ rest) (jsonTokens p v) rest
  | .bool true, rest, _, hr => scans_keyword "true" 0x74 [0x72, 0x75, 0x65] (by decide) (by decide)
      (by simp [isWord, isLetter]) (by decide) hr
  | .bool false, rest, _, hr => scans_keyword "false" 0x66 [0x61, 0x6c, 0x73, 0x65] (by decide)
      (by decide) (by simp [isWord, isLetter]) (by decide) hr
  | .double d, rest, hv, hr => by
    obtain ⟨q, rfl, hq⟩ := hv
    exact scans_luaNumber hp hq hr
  | .string s, rest, _, _ => .single (nextToken_luaString s rest)
  | .array items, rest, hv, _ => by
    rw [luaValue, jsonTokens]
    exact scans_items hp items rest hv
  | .object entries, rest, hv, _ => by
    rw [luaValue, jsonTokens]
    exact scans_members hp entries rest hv

theorem scans_items (hp : WritesSeventeenDigits p) : ∀ (items : List QJsonValue) (rest : QByteArray), RenderableItems items →
    Scans (braced (luaItems p items) ++ rest) (.symbol 0x7b :: itemTokens p items) rest
  | [], rest, _ => by
    rw [luaItems, braced_nil]
    exact .cons (scanToken_symbol (by decide) (by simp [joins])) (scans_close rest)
  | v :: items, rest, hv => by
    rw [luaItems, braced_cons]
    exact .cons (scanToken_symbol (by decide) (by simp [joins]))
      ((scans_luaValue hp v _ hv.1 (moreText_ends _ _)).append (scans_moreItems hp items rest hv.2))

theorem scans_moreItems (hp : WritesSeventeenDigits p) : ∀ (items : List QJsonValue) (rest : QByteArray), RenderableItems items →
    Scans (moreText (luaItems p items) rest) (moreItemTokens p items) rest
  | [], rest, _ => scans_close rest
  | v :: items, rest, hv => by
    rw [luaItems, moreText_cons]
    refine .cons (scanToken_symbol (by decide) (by simp [joins])) (Scans.spaced ?_ ?_)
    · exact (scans_luaValue hp v _ hv.1 (moreText_ends _ _)).append (scans_moreItems hp items rest hv.2)
    · simp [jsonTokens_ne_nil hv.1]

theorem scans_members (hp : WritesSeventeenDigits p) : ∀ (entries : List (QString × QJsonValue)) (rest : QByteArray), RenderableMembers entries →
    Scans (braced (luaMembers p entries) ++ rest) (.symbol 0x7b :: memberTokens p entries) rest
  | [], rest, _ => by
    rw [luaMembers, braced_nil]
    exact .cons (scanToken_symbol (by decide) (by simp [joins])) (scans_close rest)
  | (key, v) :: entries, rest, hv => by
    have hequals : bytes " = " = [0x20, 0x3d, 0x20] := by decide
    have hvalue := (scans_luaValue hp v _ hv.1 (moreText_ends _ rest)).append (scans_moreMembers hp entries rest hv.2)
    obtain ⟨r, hkey, hr⟩ := scans_luaKey key (luaValue p v ++ moreText (luaMembers p entries) rest)
    rw [luaMembers, braced_cons, hequals]
    simp only [List.append_assoc, List.cons_append, List.nil_append]
    refine .cons (scanToken_symbol (by decide) ?_) (hkey.append (.cons hr (hvalue.spaced ?_)))
    · simp [joins]
    · simp [jsonTokens_ne_nil hv.1]

theorem scans_moreMembers (hp : WritesSeventeenDigits p) : ∀ (entries : List (QString × QJsonValue)) (rest : QByteArray), RenderableMembers entries →
    Scans (moreText (luaMembers p entries) rest) (moreMemberTokens p entries) rest
  | [], rest, _ => scans_close rest
  | (key, v) :: entries, rest, hv => by
    have hequals : bytes " = " = [0x20, 0x3d, 0x20] := by decide
    have hvalue := (scans_luaValue hp v _ hv.1 (moreText_ends _ rest)).append (scans_moreMembers hp entries rest hv.2)
    obtain ⟨r, hkey, hr⟩ := scans_luaKey key (luaValue p v ++ moreText (luaMembers p entries) rest)
    rw [luaMembers, moreText_cons, hequals]
    simp only [List.append_assoc, List.cons_append, List.nil_append]
    refine .cons (scanToken_symbol (by decide) (by simp [joins])) (Scans.spaced (hkey.append (.cons hr (hvalue.spaced ?_))) ?_)
    · simp [jsonTokens_ne_nil hv.1]
    · simp
end

end Scanning

section Parsing

mutual
/-- The expression of a value, none where it is no expression. -/
def jsonExpr (p : Platform) : QJsonValue → Option Expr
  | .bool b => some (.boolean b)
  | .double (.finite q) => some (numberExpr p q)
  | .double _ => none
  | .string s => some (.string (toUtf8 s))
  | .array items => (jsonItems p items).map .table
  | .object entries => (jsonMembers p entries).map .table
  | .undefined | .null => some .nil

def jsonItems (p : Platform) : List QJsonValue → Option (List Field)
  | [] => some []
  | v :: rest => (jsonExpr p v).bind fun e => (jsonItems p rest).map ((none, e) :: ·)

def jsonMembers (p : Platform) : List (QString × QJsonValue) → Option (List Field)
  | [] => some []
  | (key, v) :: rest =>
    (keyExpr key).bind fun k => (jsonExpr p v).bind fun e => (jsonMembers p rest).map ((some k, e) :: ·)
end

/-- No value begins as a field with a key does, nor as the end of a table. -/
theorem jsonTokens_head {v : QJsonValue} (hv : Renderable v) (ts : List Token) :
    (jsonTokens p v ++ ts).head? ≠ some (.symbol 0x5b) ∧ (jsonTokens p v ++ ts).head? ≠ some (.symbol 0x7d) ∧
      ∀ name, (jsonTokens p v ++ ts).head? ≠ some (.name name) := by
  cases v with
  | double d =>
    obtain ⟨q, rfl, -⟩ := hv
    rw [jsonTokens, numeralTokens]
    cases (numeralOf p q).1 <;> simp
  | _ => simp [jsonTokens]

theorem keyTokens_head (key : QString) (ts : List Token) : (keyTokens key ++ ts).head? ≠ some (.symbol 0x7d) := by
  rw [keyTokens, wordToken]
  split_ifs <;> simp

/-- A field with the key in front of a value. -/
theorem parseField_key (depth : Nat) (key : QString) (ts : List Token) :
    (∀ k, keyExpr key = some k → parseField (depth + 2) (keyTokens key ++ .symbol 0x3d :: ts)
      = (parseExpr (depth + 1) ts).map fun r => ((some k, r.1), r.2)) ∧
    (keyExpr key = none → ∀ field rest, parseField (depth + 2) (keyTokens key ++ .symbol 0x3d :: ts) = some (field, rest) →
      rest = .symbol 0x3d :: ts) := by
  rw [keyExpr, keyTokens, wordToken]
  by_cases hname : luaIdentifier key = true
  · rw [if_pos hname, if_pos hname]
    by_cases hkeyword : isKeyword (wordOf key) = true
    · rw [if_pos hkeyword, if_pos hkeyword]
      refine ⟨fun k hk => absurd hk (by simp), fun _ field rest h => ?_⟩
      rw [List.singleton_append, parseField_positional (by simp) (by simp)] at h
      obtain ⟨r, hr, heq⟩ := Option.map_eq_some_iff.mp h
      cases heq
      exact parseExpr_keyword hr
    · rw [if_neg hkeyword, if_neg hkeyword]
      refine ⟨fun k hk => ?_, fun hk => absurd hk (by simp)⟩
      cases hk
      exact parseField_name _
  · rw [if_neg hname, if_neg hname]
    refine ⟨fun k hk => ?_, fun hk => absurd hk (by simp)⟩
    cases hk
    exact parseField_bracket _

mutual
/-- The tokens of a value are parsed as its expression by every deep enough parse. -/
theorem parse_jsonTokens : ∀ v : QJsonValue, Renderable v → ∃ bound, ∀ depth ≥ bound, ∀ ts,
    parseExpr depth (jsonTokens p v ++ ts) = (jsonExpr p v).map (·, ts)
  | .bool true, _ => ⟨1, fun depth hdepth ts => by
    obtain ⟨k, rfl⟩ : ∃ k, depth = k + 1 := ⟨depth - 1, by omega⟩
    rfl⟩
  | .bool false, _ => ⟨1, fun depth hdepth ts => by
    obtain ⟨k, rfl⟩ : ∃ k, depth = k + 1 := ⟨depth - 1, by omega⟩
    rfl⟩
  | .double d, hv => ⟨1, fun depth hdepth ts => by
    obtain ⟨k, rfl⟩ : ∃ k, depth = k + 1 := ⟨depth - 1, by omega⟩
    obtain ⟨q, rfl, -⟩ := hv
    exact parse_numeralTokens k ts⟩
  | .string s, _ => ⟨1, fun depth hdepth ts => by
    obtain ⟨k, rfl⟩ : ∃ k, depth = k + 1 := ⟨depth - 1, by omega⟩
    rfl⟩
  | .array items, hv => by
    obtain ⟨bound, hbound⟩ := parse_itemTokens items hv
    refine ⟨bound + 1, fun depth hdepth ts => ?_⟩
    obtain ⟨k, rfl⟩ : ∃ k, depth = k + 1 := ⟨depth - 1, by omega⟩
    have : parseExpr (k + 1) (jsonTokens p (.array items) ++ ts)
        = (parseFields k (itemTokens p items ++ ts)).map fun r => (.table r.1, r.2) := rfl
    rw [this, hbound k (by omega), jsonExpr]
    cases jsonItems p items <;> rfl
  | .object entries, hv => by
    obtain ⟨bound, hbound⟩ := parse_memberTokens entries hv
    refine ⟨bound + 1, fun depth hdepth ts => ?_⟩
    obtain ⟨k, rfl⟩ : ∃ k, depth = k + 1 := ⟨depth - 1, by omega⟩
    have : parseExpr (k + 1) (jsonTokens p (.object entries) ++ ts)
        = (parseFields k (memberTokens p entries ++ ts)).map fun r => (.table r.1, r.2) := rfl
    rw [this, hbound k (by omega), jsonExpr]
    cases jsonMembers p entries <;> rfl

theorem parse_itemTokens : ∀ items : List QJsonValue, RenderableItems items → ∃ bound, ∀ depth ≥ bound, ∀ ts,
    parseFields depth (itemTokens p items ++ ts) = (jsonItems p items).map (·, ts)
  | [], _ => ⟨1, fun depth hdepth ts => by
    obtain ⟨k, rfl⟩ : ∃ k, depth = k + 1 := ⟨depth - 1, by omega⟩
    rfl⟩
  | v :: items, hv => by
    obtain ⟨one, hone⟩ := parse_jsonTokens v hv.1
    obtain ⟨more, hmore⟩ := parse_itemTokens items hv.2
    refine ⟨one + more + 2, fun depth hdepth ts => ?_⟩
    obtain ⟨k, rfl⟩ : ∃ k, depth = k + 2 := ⟨depth - 2, by omega⟩
    rw [itemTokens, List.append_assoc, jsonItems]
    obtain ⟨hopen, hclose, hname⟩ := jsonTokens_head (p := p) hv.1 (moreItemTokens p items ++ ts)
    have hfield : parseField (k + 1) _ = _ := parseField_positional hopen hname
    rw [hone k (by omega), Option.map_map] at hfield
    cases he : jsonExpr p v with
    | none =>
      rw [he] at hfield
      exact parseFields_none hclose fun field rest h => by rw [hfield] at h; cases h
    | some e =>
      rw [he] at hfield
      cases items with
      | nil => exact parseFields_last hclose hfield
      | cons w items =>
        refine (parseFields_more hclose hfield).trans ((congrArg _ (hmore (k + 1) (by omega) ts)).trans ?_)
        cases jsonItems p (w :: items) <;> rfl

theorem parse_memberTokens : ∀ entries : List (QString × QJsonValue), RenderableMembers entries → ∃ bound,
    ∀ depth ≥ bound, ∀ ts, parseFields depth (memberTokens p entries ++ ts) = (jsonMembers p entries).map (·, ts)
  | [], _ => ⟨1, fun depth hdepth ts => by
    obtain ⟨k, rfl⟩ : ∃ k, depth = k + 1 := ⟨depth - 1, by omega⟩
    rfl⟩
  | (key, v) :: entries, hv => by
    obtain ⟨one, hone⟩ := parse_jsonTokens v hv.1
    obtain ⟨more, hmore⟩ := parse_memberTokens entries hv.2
    refine ⟨one + more + 3, fun depth hdepth ts => ?_⟩
    obtain ⟨k, rfl⟩ : ∃ k, depth = k + 3 := ⟨depth - 3, by omega⟩
    rw [memberTokens, List.append_assoc, List.cons_append, List.append_assoc, jsonMembers]
    have hclose := keyTokens_head key (.symbol 0x3d :: (jsonTokens p v ++ (moreMemberTokens p entries ++ ts)))
    obtain ⟨hsome, hnone⟩ := parseField_key k key (jsonTokens p v ++ (moreMemberTokens p entries ++ ts))
    cases hk : keyExpr key with
    | none =>
      refine parseFields_none hclose fun field rest h b hb => ?_
      rw [hnone hk field rest h]
      intro heq
      rw [← Token.symbol.inj (Option.some.inj heq)] at hb
      exact absurd hb (by decide)
    | some key =>
      have hfield := hsome key hk
      rw [hone (k + 1) (by omega), Option.map_map] at hfield
      cases he : jsonExpr p v with
      | none =>
        rw [he] at hfield
        exact parseFields_none hclose fun field rest h => by rw [hfield] at h; cases h
      | some e =>
        rw [he] at hfield
        cases entries with
        | nil => exact parseFields_last hclose hfield
        | cons member entries =>
          refine (parseFields_more hclose hfield).trans ((congrArg _ (hmore (k + 2) (by omega) ts)).trans ?_)
          cases jsonMembers p (member :: entries) <;> rfl
end

end Parsing

section Values

mutual
/-- A JSON value as Lua data. -/
def ofJson : QJsonValue → Data
  | .bool b => .boolean b
  | .double (.finite q) => .number q
  | .double _ => .nil
  | .string s => .string (toUtf8 s)
  | .array items => .table (ofItems 1 items)
  | .object entries => .table (ofMembers entries)
  | .undefined | .null => .nil

def ofItems : Nat → List QJsonValue → List (Data × Data)
  | _, [] => []
  | index, v :: rest => (.number index, ofJson v) :: ofItems (index + 1) rest

def ofMembers : List (QString × QJsonValue) → List (Data × Data)
  | [] => []
  | (key, v) :: rest => (.string (toUtf8 key), ofJson v) :: ofMembers rest
end

mutual
/-- No number is 2^63, no key a name with a line feed, and no two keys of an object have the same bytes. -/
def Unambiguous : QJsonValue → Prop
  | .double d => d ≠ .finite (2 ^ 63)
  | .array items => UnambiguousItems items
  | .object entries => (entries.map fun entry => toUtf8 entry.1).Nodup ∧ UnambiguousMembers entries
  | .bool _ | .string _ | .undefined | .null => True

def UnambiguousItems : List QJsonValue → Prop
  | [] => True
  | v :: rest => Unambiguous v ∧ UnambiguousItems rest

def UnambiguousMembers : List (QString × QJsonValue) → Prop
  | [] => True
  | (key, v) :: rest => (¬ EndsInLineFeed key ∧ Unambiguous v) ∧ UnambiguousMembers rest
end

theorem ofJson_ne_nil {v : QJsonValue} (hv : Renderable v) : ofJson v ≠ .nil := by
  cases v with
  | double d =>
    obtain ⟨q, rfl, -⟩ := hv
    simp [ofJson]
  | undefined | null => exact hv.elim
  | _ => simp [ofJson]

theorem ofItems_length (items : List QJsonValue) (index : Nat) : (ofItems index items).length = items.length := by
  induction items generalizing index with
  | nil => rfl
  | cons v items ih => rw [ofItems, List.length_cons, ih, List.length_cons]

theorem ofItems_values {items : List QJsonValue} (hv : RenderableItems items) (index : Nat) :
    ∀ e ∈ ofItems index items, e.2 ≠ .nil := by
  induction items generalizing index with
  | nil => exact nofun
  | cons v items ih => exact List.forall_mem_cons.mpr ⟨ofJson_ne_nil hv.1, ih hv.2 _⟩

theorem ofItems_keys (items : List QJsonValue) (index : Nat) : ((ofItems index items).map Prod.fst).Nodup := by
  suffices h : ∀ index, ((ofItems index items).map Prod.fst).Nodup ∧
      ∀ key ∈ (ofItems index items).map Prod.fst, ∃ n ≥ index, key = .number (n : Nat) from (h index).1
  induction items with
  | nil => exact fun index => ⟨List.nodup_nil, nofun⟩
  | cons v items ih =>
    intro index
    obtain ⟨hnodup, hge⟩ := ih (index + 1)
    rw [ofItems, List.map_cons]
    refine ⟨List.nodup_cons.mpr ⟨fun hmem => ?_, hnodup⟩, List.forall_mem_cons.mpr ⟨⟨index, le_refl _, rfl⟩, fun key hkey => ?_⟩⟩
    · obtain ⟨n, hn, heq⟩ := hge _ hmem
      have : index = n := by exact_mod_cast Data.number.inj heq
      omega
    · obtain ⟨n, hn, rfl⟩ := hge key hkey
      exact ⟨n, by omega, rfl⟩

theorem ofMembers_length (entries : List (QString × QJsonValue)) : (ofMembers entries).length = entries.length := by
  induction entries with
  | nil => rfl
  | cons entry entries ih => rw [ofMembers, List.length_cons, ih, List.length_cons]

theorem ofMembers_values {entries : List (QString × QJsonValue)} (hv : RenderableMembers entries) :
    ∀ e ∈ ofMembers entries, e.2 ≠ .nil := by
  induction entries with
  | nil => exact nofun
  | cons entry entries ih => exact List.forall_mem_cons.mpr ⟨ofJson_ne_nil hv.1, ih hv.2⟩

theorem ofMembers_keys (entries : List (QString × QJsonValue)) :
    ((ofMembers entries).map Prod.fst).Nodup ↔ (entries.map fun entry => toUtf8 entry.1).Nodup := by
  have hkeys : (ofMembers entries).map Prod.fst = (entries.map fun entry => toUtf8 entry.1).map .string := by
    induction entries with
    | nil => rfl
    | cons entry entries ih => rw [ofMembers, List.map_cons, ih, List.map_cons, List.map_cons]
  rw [hkeys, List.nodup_map_iff fun _ _ => Data.string.inj]

theorem evaluate_keyExpr (key : QString) :
    (∃ k, keyExpr key = some k ∧ evaluate k = .string (toUtf8 key)) ↔ ¬ EndsInLineFeed key := by
  rw [← keyExpr_eq_iff]
  constructor
  · rintro ⟨k, hk, hvalue⟩
    have hstring : ∃ content, k = .string content := by
      rw [keyExpr] at hk
      split_ifs at hk <;> cases hk <;> exact ⟨_, rfl⟩
    obtain ⟨content, rfl⟩ := hstring
    rw [hk, Data.string.inj hvalue]
  · exact fun h => ⟨_, h, by rw [evaluate]⟩

theorem evaluateFields_length (fields : List Lua.Field) (index : Nat) : (evaluateFields index fields).length = fields.length := by
  induction fields generalizing index with
  | nil => rfl
  | cons field fields ih =>
    obtain ⟨_ | key, v⟩ := field
    · rw [evaluateFields, List.length_cons, ih, List.length_cons]
    · rw [evaluateFields, List.length_cons, ih, List.length_cons]

theorem jsonItems_length {items : List QJsonValue} {fields : List Lua.Field} (h : jsonItems p items = some fields) :
    fields.length = items.length := by
  induction items generalizing fields with
  | nil => cases h; rfl
  | cons v items ih =>
    obtain ⟨e, -, h⟩ := Option.bind_eq_some_iff.mp h
    obtain ⟨more, hmore, rfl⟩ := Option.map_eq_some_iff.mp h
    rw [List.length_cons, List.length_cons, ih hmore]

theorem jsonMembers_length {entries : List (QString × QJsonValue)} {fields : List Lua.Field}
    (h : jsonMembers p entries = some fields) : fields.length = entries.length := by
  induction entries generalizing fields with
  | nil => cases h; rfl
  | cons entry entries ih =>
    obtain ⟨k, -, h⟩ := Option.bind_eq_some_iff.mp h
    obtain ⟨e, -, h⟩ := Option.bind_eq_some_iff.mp h
    obtain ⟨more, hmore, rfl⟩ := Option.map_eq_some_iff.mp h
    rw [List.length_cons, List.length_cons, ih hmore]

mutual
/-- The expression of a value has that value exactly when nothing in it is ambiguous. -/
theorem evaluate_jsonExpr : ∀ v : QJsonValue, Renderable v →
    ((∃ e, jsonExpr p v = some e ∧ evaluate e = ofJson v) ↔ Unambiguous v)
  | .bool b, _ => iff_of_true ⟨_, rfl, rfl⟩ trivial
  | .string s, _ => iff_of_true ⟨_, rfl, rfl⟩ trivial
  | .double d, hv => by
    obtain ⟨q, rfl, hq⟩ := hv
    rw [Unambiguous]
    constructor
    · rintro ⟨e, he, hvalue⟩ heq
      cases heq
      cases he
      rw [evaluate_numberExpr] at hvalue
      exact writtenValue_ne (Data.number.inj hvalue)
    · intro hne
      refine ⟨_, rfl, ?_⟩
      rw [evaluate_numberExpr, writtenValue_eq hq fun h => hne (by rw [h]), ofJson]
  | .array items, hv => by
    rw [Unambiguous, ← evaluate_items items hv 1]
    constructor
    · rintro ⟨e, he, hvalue⟩
      obtain ⟨fields, hfields, rfl⟩ := Option.map_eq_some_iff.mp he
      refine ⟨fields, hfields, ((entriesOf_eq_iff ?_).mp (Data.table.inj hvalue)).1⟩
      rw [ofItems_length, evaluateFields_length, jsonItems_length hfields]
    · rintro ⟨fields, hfields, hvalue⟩
      refine ⟨.table fields, by rw [jsonExpr, hfields, Option.map_some], ?_⟩
      rw [evaluate, hvalue, entriesOf_eq_self_iff.mpr ⟨ofItems_keys items 1, ofItems_values hv 1⟩, ofJson]
  | .object entries, hv => by
    rw [Unambiguous, ← evaluate_members entries hv 1, ← ofMembers_keys]
    constructor
    · rintro ⟨e, he, hvalue⟩
      obtain ⟨fields, hfields, rfl⟩ := Option.map_eq_some_iff.mp he
      have hentries := (entriesOf_eq_iff ?_).mp (Data.table.inj hvalue)
      · exact ⟨hentries.2.1, fields, hfields, hentries.1⟩
      · rw [ofMembers_length, evaluateFields_length, jsonMembers_length hfields]
    · rintro ⟨hkeys, fields, hfields, hvalue⟩
      refine ⟨.table fields, by rw [jsonExpr, hfields, Option.map_some], ?_⟩
      rw [evaluate, hvalue, entriesOf_eq_self_iff.mpr ⟨hkeys, ofMembers_values hv⟩, ofJson]

theorem evaluate_items : ∀ items : List QJsonValue, RenderableItems items → ∀ index,
    ((∃ fields, jsonItems p items = some fields ∧ evaluateFields index fields = ofItems index items) ↔ UnambiguousItems items)
  | [], _, _ => iff_of_true ⟨_, rfl, rfl⟩ trivial
  | v :: items, hv, index => by
    rw [UnambiguousItems, ← evaluate_jsonExpr v hv.1, ← evaluate_items items hv.2 (index + 1)]
    constructor
    · rintro ⟨fields, hfields, hvalue⟩
      obtain ⟨e, he, hmap⟩ := Option.bind_eq_some_iff.mp hfields
      obtain ⟨more, hmore, rfl⟩ := Option.map_eq_some_iff.mp hmap
      rw [evaluateFields, ofItems, List.cons.injEq, Prod.mk.injEq] at hvalue
      exact ⟨⟨e, he, hvalue.1.2⟩, more, hmore, hvalue.2⟩
    · rintro ⟨⟨e, he, hvalue⟩, more, hmore, hrest⟩
      refine ⟨(none, e) :: more, by rw [jsonItems, he, hmore]; rfl, ?_⟩
      rw [evaluateFields, ofItems, hvalue, hrest]

theorem evaluate_members : ∀ entries : List (QString × QJsonValue), RenderableMembers entries → ∀ index,
    ((∃ fields, jsonMembers p entries = some fields ∧ evaluateFields index fields = ofMembers entries)
      ↔ UnambiguousMembers entries)
  | [], _, _ => iff_of_true ⟨_, rfl, rfl⟩ trivial
  | (key, v) :: entries, hv, index => by
    rw [UnambiguousMembers, ← evaluate_keyExpr, ← evaluate_jsonExpr v hv.1, ← evaluate_members entries hv.2 index]
    constructor
    · rintro ⟨fields, hfields, hvalue⟩
      obtain ⟨k, hk, hbind⟩ := Option.bind_eq_some_iff.mp hfields
      obtain ⟨e, he, hmap⟩ := Option.bind_eq_some_iff.mp hbind
      obtain ⟨more, hmore, rfl⟩ := Option.map_eq_some_iff.mp hmap
      rw [evaluateFields, ofMembers, List.cons.injEq, Prod.mk.injEq] at hvalue
      exact ⟨⟨⟨k, hk, hvalue.1.1⟩, e, he, hvalue.1.2⟩, more, hmore, hvalue.2⟩
    · rintro ⟨⟨⟨k, hk, hkey⟩, e, he, hvalue⟩, more, hmore, hrest⟩
      refine ⟨(some k, e) :: more, by rw [jsonMembers, hk, he, hmore]; rfl, ?_⟩
      rw [evaluateFields, ofMembers, hkey, hvalue, hrest]
end

end Values

end Tables

theorem luaValue_evaluates (hp : WritesSeventeenDigits p) {v : QJsonValue} (hv : Renderable v) (d : Data) :
    Evaluates (luaValue p v) d ↔ ∃ e, jsonExpr p v = some e ∧ evaluate e = d := by
  have hscans : Scans (luaValue p v) (jsonTokens p v) [] := by
    have := scans_luaValue hp v [] hv rfl
    rwa [List.append_nil] at this
  obtain ⟨bound, hbound⟩ := parse_jsonTokens (p := p) v hv
  have hparse : ∀ depth ≥ bound, parseExpr depth (jsonTokens p v) = (jsonExpr p v).map (·, []) := by
    intro depth hdepth
    have := hbound depth hdepth []
    rwa [List.append_nil] at this
  exact evaluates_iff ⟨[], hscans, rfl⟩ hparse d

/-- Every string is its literal; a value is what its text says exactly when nothing in it is ambiguous. -/
theorem luaLiterals_exact (p : Platform) (hp : WritesSeventeenDigits p) :
    (∀ (s : QString) (rest : QByteArray), nextToken (luaString s ++ rest) = some (.string (toUtf8 s), rest)) ∧
      ∀ v, Renderable v → (Evaluates (luaValue p v) (ofJson v) ↔ Unambiguous v) :=
  ⟨nextToken_luaString, fun v hv => (luaValue_evaluates hp hv _).trans (evaluate_jsonExpr v hv)⟩

def flagsObject (key : String) : QJsonValue := .object [(qstr key, .array [.bool true, .string (qstr "\"")])]

theorem flagsObject_renderable (key : String) : Renderable (flagsObject key) := ⟨⟨trivial, trivial, trivial⟩, trivial⟩

theorem flagsObject_unambiguous {key : String} : Unambiguous (flagsObject key) ↔ ¬ EndsInLineFeed (qstr key) :=
  ⟨fun h => h.2.1.1, fun h => ⟨List.nodup_singleton _, ⟨h, trivial, trivial, trivial⟩, trivial⟩⟩

theorem luaLiterals_exact_sample : Evaluates (luaValue seventeenPlatform (flagsObject "a b")) (ofJson (flagsObject "a b")) :=
  ((luaLiterals_exact seventeenPlatform fun _ _ => rfl).2 _ (flagsObject_renderable _)).mpr
    (flagsObject_unambiguous.mpr fun h => absurd h.1 (by decide))

/-- A key with a final line feed loses it: the end of the expression also matches in front of it. -/
theorem luaLiterals_lineFeed :
    ¬ Evaluates (luaValue seventeenPlatform (flagsObject "a\n")) (ofJson (flagsObject "a\n")) ∧
      Evaluates (luaValue seventeenPlatform (flagsObject "a\n")) (ofJson (flagsObject "a")) := by
  have hvalue := luaValue_evaluates (p := seventeenPlatform) (fun _ _ => rfl) (flagsObject_renderable "a\n")
  constructor
  · rw [hvalue, evaluate_jsonExpr _ (flagsObject_renderable _), flagsObject_unambiguous, not_not]
    exact ⟨by decide, by decide⟩
  · have hkey : keyExpr (qstr "a\n") = keyExpr (qstr "a") := by
      rw [keyExpr, keyExpr, if_pos (show luaIdentifier (qstr "a\n") = true by decide),
        if_pos (show luaIdentifier (qstr "a") = true by decide), show wordOf (qstr "a\n") = wordOf (qstr "a") by decide]
    have hexpr : jsonExpr seventeenPlatform (flagsObject "a\n") = jsonExpr seventeenPlatform (flagsObject "a") := by
      simp only [flagsObject, jsonExpr, jsonMembers, hkey]
    rw [hvalue, hexpr, evaluate_jsonExpr _ (flagsObject_renderable _), flagsObject_unambiguous]
    exact fun h => absurd h.2 (by decide)

end HyprShelld.Compositor
