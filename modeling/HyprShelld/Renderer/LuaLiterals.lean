import HyprShelld.Renderer.LuaNumbers

/-! Strings and keys in generated Lua: which tokens they are. -/
namespace HyprShelld.Compositor
open Hyprland Lua
variable {p : Platform}

section Strings

private theorem hexOf_hexDigit : ∀ n < 16, hexOf (hexDigit n) = some (UInt8.ofNat n) := by decide

private theorem hex_join (b : UInt8) : 16 * UInt8.ofNat (b.toNat / 16) + UInt8.ofNat (b.toNat % 16) = b := by
  have hb := b.toNat_lt
  apply UInt8.toNat_inj.mp
  have h16 : (16 : UInt8).toNat = 16 := rfl
  rw [UInt8.toNat_add, UInt8.toNat_mul, UInt8.toNat_ofNat', UInt8.toNat_ofNat', h16]
  omega

/-- One byte of a string literal is read back. -/
theorem scanString_byte (b : UInt8) (rest : QByteArray) :
    scanString (luaStringByte b ++ rest) = (scanString rest).map fun r => (b :: r.1, r.2) := by
  unfold luaStringByte
  split_ifs with hquoted hline hreturn htab hcontrol
  · refine scanString_escape ?_
    rcases hquoted with rfl | rfl <;> rfl
  · subst hline
    exact scanString_escape (s := 0x6e :: rest) rfl
  · subst hreturn
    exact scanString_escape (s := 0x72 :: rest) rfl
  · subst htab
    exact scanString_escape (s := 0x74 :: rest) rfl
  · have hb := b.toNat_lt
    have hescape : Lua.escape (0x78 :: hexDigit (b.toNat / 16) :: hexDigit (b.toNat % 16) :: rest) = some (b, rest) := by
      simp only [Lua.escape, if_true, hexOf_hexDigit _ (show b.toNat / 16 < 16 by omega),
        hexOf_hexDigit _ (show b.toNat % 16 < 16 by omega), Option.bind_some, Option.map_some, hex_join]
    exact scanString_escape hescape
  · refine scanString_plain (fun h => hquoted (.inr h)) ?_ (fun h => hquoted (.inl h)) rest
    rintro (h | h)
    · exact hline h
    · exact hreturn h

theorem scanString_bytes (content rest : QByteArray) :
    scanString (content.flatMap luaStringByte ++ 0x22 :: rest) = some (content, rest) := by
  induction content with
  | nil => exact scanString_quote rest
  | cons b content ih =>
    rw [List.flatMap_cons, List.append_assoc, scanString_byte, ih]
    rfl

/-- A string literal is one token, and its content is the UTF-8 of the string. -/
theorem nextToken_luaString (s : QString) (rest : QByteArray) :
    nextToken (luaString s ++ rest) = some (.string (toUtf8 s), rest) := by
  have hquote : bytes "\"" = [0x22] := by decide
  have htext : luaString s ++ rest = 0x22 :: ((toUtf8 s).flatMap luaStringByte ++ 0x22 :: rest) := by
    simp [luaString, hquote]
  rw [htext, nextToken_quote, scanString_bytes]
  rfl

end Strings

section Keys

/-- The word at the front of a key. -/
def wordOf (key : QString) : QByteArray := (toUtf8 key).takeWhile isWord

def keyTokens (key : QString) : List Token :=
  if luaIdentifier key then [wordToken (wordOf key)] else [.symbol 0x5b, .string (toUtf8 key), .symbol 0x5d]

/-- The expression of a key, none where its word is a keyword. -/
def keyExpr (key : QString) : Option Expr :=
  if luaIdentifier key then if isKeyword (wordOf key) then none else some (.string (wordOf key))
  else some (.string (toUtf8 key))

/-- A name with a final line feed, which the end anchor of the expression lets through. -/
def EndsInLineFeed (key : QString) : Prop := luaIdentifier key = true ∧ key.getLast? = some 0x0a

private theorem toUtf8_qstr (s : String) : toUtf8 (qstr s) = utf8 s.toList := by
  have := toUtf8_text (scalars_utf16 s.toList) []
  rwa [List.append_nil, toUtf8, List.append_nil] at this

theorem keywords_eq : keywords = reservedWords.map toUtf8 := by
  rw [keywords, reservedWords, List.map_map]
  exact List.map_congr_left fun word _ => (toUtf8_qstr word).symm

private theorem reserved_ascii : (reservedWords.all fun word => word.all fun u => decide (u.toNat < 0x80)) = true := by decide

private theorem isLetter_ofNat {c : Nat} (hc : Pattern.among [('A', 'Z'), ('a', 'z'), ('_', '_')] c = true) :
    c < 0x80 ∧ isLetter (UInt8.ofNat c) = true := by
  simp only [Pattern.among, List.any_cons, List.any_nil, Bool.or_false, Bool.or_eq_true, Bool.and_eq_true,
    decide_eq_true_eq, Char.reduceToNat] at hc
  have hlt : c < 0x80 := by omega
  refine ⟨hlt, ?_⟩
  have hn : (UInt8.ofNat c).toNat = c := by
    rw [UInt8.toNat_ofNat']
    omega
  simp only [isLetter, Bool.or_eq_true, Bool.and_eq_true, decide_eq_true_eq, UInt8.le_iff_toNat_le, ← UInt8.toNat_inj,
    UInt8.reduceToNat, hn]
  omega

private theorem isWord_ofNat {c : Nat} (hc : Pattern.among [('A', 'Z'), ('a', 'z'), ('0', '9'), ('_', '_')] c = true) :
    c < 0x80 ∧ isWord (UInt8.ofNat c) = true := by
  simp only [Pattern.among, List.any_cons, List.any_nil, Bool.or_false, Bool.or_eq_true, Bool.and_eq_true,
    decide_eq_true_eq, Char.reduceToNat] at hc
  have hlt : c < 0x80 := by omega
  refine ⟨hlt, ?_⟩
  have hn : (UInt8.ofNat c).toNat = c := by
    rw [UInt8.toNat_ofNat']
    omega
  simp only [isWord, isLetter, Lua.isDigit, Bool.or_eq_true, Bool.and_eq_true, decide_eq_true_eq, UInt8.le_iff_toNat_le,
    ← UInt8.toNat_inj, UInt8.reduceToNat, hn]
  omega

/-- What matches the expression: a name, with one line feed behind it or none. -/
theorem hasMatch_luaName {key : QString} (h : hasMatch luaName key = true) :
    (∀ u ∈ key, u.toNat < 0x80) ∧ ∃ b word tail, toUtf8 key = b :: word ++ tail ∧ isLetter b = true ∧
      (∀ c ∈ word, isWord c = true) ∧ ((tail = [] ∧ key.getLast? ≠ some 0x0a) ∨ (tail = [0x0a] ∧ key.getLast? = some 0x0a)) := by
  obtain ⟨codes, hcodes, hend⟩ := List.any_eq_true.mp (show Pattern.matchesWhole luaName (toUcs4 key) = true from h)
  obtain ⟨t, hucs4, u, v, rfl, ⟨hu, hu1, hu2⟩, hv, -, -⟩ := Pattern.mem_remainders.mp hcodes
  have hlength : u.length = 1 := le_antisymm (hu2 1 rfl) hu1
  obtain ⟨c, rfl⟩ := List.length_eq_one_iff.mp hlength
  obtain ⟨hc, hletter⟩ := isLetter_ofNat (hu c List.mem_cons_self)
  have hcodes' : codes = [] ∨ codes = [0x0a] := by simpa using hend
  have hsmall : ∀ d ∈ toUcs4 key, d < 0x80 := by
    intro d hd
    rw [hucs4] at hd
    rcases List.mem_append.mp hd with hd | hd
    · rcases List.mem_append.mp hd with hd | hd
      · rwa [List.mem_singleton.mp hd]
      · exact (isWord_ofNat (hv d hd)).1
    · rcases hcodes' with rfl | rfl
      · cases hd
      · rw [List.mem_singleton.mp hd]
        decide
  have hbasic := toUcs4_basic (s := key) fun d hd => (hsmall d hd).trans (by decide)
  have hascii : ∀ x ∈ key, x.toNat < 0x80 := by
    intro x hx
    exact hsmall _ (by rw [← hbasic]; exact List.mem_map_of_mem hx)
  have hbytes : toUtf8 key = (toUcs4 key).map UInt8.ofNat := by
    rw [toUtf8_ascii hascii, ← hbasic, List.map_map]
    rfl
  refine ⟨hascii, UInt8.ofNat c, v.map UInt8.ofNat, codes.map UInt8.ofNat, ?_, hletter, ?_, ?_⟩
  · rw [hbytes, hucs4]
    simp
  · intro x hx
    obtain ⟨d, hd, rfl⟩ := List.mem_map.mp hx
    exact (isWord_ofNat (hv d hd)).2
  · have hlast : (key.map UInt16.toNat).getLast? = ([c] ++ v ++ codes).getLast? := by rw [hbasic, hucs4]
    rw [List.getLast?_map] at hlast
    rcases hcodes' with rfl | rfl
    · refine .inl ⟨rfl, fun hfeed => ?_⟩
      rw [hfeed, List.append_nil] at hlast
      have hmem : 0x0a ∈ [c] ++ v := List.mem_of_getLast? hlast.symm
      rcases List.mem_append.mp hmem with hmem | hmem
      · have := hu c List.mem_cons_self
        rw [← List.mem_singleton.mp hmem] at this
        revert this
        decide
      · have := hv _ hmem
        revert this
        decide
    · refine .inr ⟨rfl, ?_⟩
      rw [List.getLast?_append] at hlast
      obtain ⟨x, hx, hfeed⟩ := Option.map_eq_some_iff.mp hlast
      rw [hx, ← UInt16.ofNat_toNat (x := x), hfeed]
      rfl

theorem isKeyword_iff {key : QString} (hkey : ∀ u ∈ key, u.toNat < 0x80) :
    isKeyword (toUtf8 key) = true ↔ key ∈ reservedWords := by
  rw [isKeyword, List.contains_iff_mem, keywords_eq]
  constructor
  · intro h
    obtain ⟨word, hword, heq⟩ := List.mem_map.mp h
    have hascii : ∀ u ∈ word, u.toNat < 0x80 := by
      have := List.all_eq_true.mp reserved_ascii word hword
      exact fun u hu => of_decide_eq_true (List.all_eq_true.mp this u hu)
    have htext : ∀ {s : QString}, (∀ u ∈ s, u.toNat < 0x80) → (toUtf8 s).map (fun b => UInt16.ofNat b.toNat) = s := by
      intro s hs
      rw [toUtf8_ascii hs, List.map_map]
      refine (List.map_congr_left fun u hu => ?_).trans (List.map_id' s)
      have := hs u hu
      apply UInt16.toNat_inj.mp
      rw [Function.comp_apply, UInt8.toNat_ofNat', UInt16.toNat_ofNat']
      omega
    have : word = key := by rw [← htext hascii, heq, htext hkey]
    exact this ▸ hword
  · exact fun h => List.mem_map_of_mem h

/-- What stands for an identifier: its word, and a line feed perhaps. -/
theorem luaIdentifier_shape {key : QString} (h : luaIdentifier key = true) :
    ∃ b word tail, toUtf8 key = b :: word ++ tail ∧ wordOf key = b :: word ∧ isLetter b = true ∧
      (∀ c ∈ word, isWord c = true) ∧
      ((tail = [] ∧ ¬ EndsInLineFeed key ∧ ¬ isKeyword (wordOf key) = true) ∨ (tail = [0x0a] ∧ EndsInLineFeed key)) := by
  obtain ⟨hmatch, hreserved⟩ := Bool.and_eq_true_iff.mp h
  obtain ⟨hascii, b, word, tail, htext, hb, hword, htail⟩ := hasMatch_luaName hmatch
  have hall : ∀ c ∈ b :: word, isWord c = true := by
    intro c hc
    rcases List.mem_cons.mp hc with rfl | hc
    · simp [isWord, hb]
    · exact hword c hc
  have hwordOf : wordOf key = b :: word := by
    rw [wordOf, htext]
    refine (takeWhile_append hall ?_).1
    rcases htail with ⟨rfl, -⟩ | ⟨rfl, -⟩ <;> rfl
  refine ⟨b, word, tail, htext, hwordOf, hb, hword, ?_⟩
  rcases htail with ⟨rfl, hlast⟩ | ⟨rfl, hlast⟩
  · refine .inl ⟨rfl, fun hfeed => hlast hfeed.2, ?_⟩
    rw [hwordOf, show b :: word = toUtf8 key by rw [htext, List.append_nil], isKeyword_iff hascii]
    simpa using hreserved
  · exact .inr ⟨rfl, h, hlast⟩

/-- A key is read as itself exactly when it is no name with a line feed. -/
theorem keyExpr_eq_iff (key : QString) : keyExpr key = some (.string (toUtf8 key)) ↔ ¬ EndsInLineFeed key := by
  by_cases h : luaIdentifier key = true
  · obtain ⟨b, word, tail, htext, hwordOf, -, -, hcase⟩ := luaIdentifier_shape h
    rw [keyExpr, if_pos h]
    rcases hcase with ⟨rfl, hfeed, hkeyword⟩ | ⟨rfl, hfeed⟩
    · rw [if_neg hkeyword, hwordOf, htext, List.append_nil]
      exact iff_of_true rfl hfeed
    · refine iff_of_false (fun heq => ?_) (not_not.mpr hfeed)
      split_ifs at heq
      rw [hwordOf, htext] at heq
      have := congrArg List.length (Expr.string.inj (Option.some.inj heq))
      simp at this
  · rw [keyExpr, if_neg h]
    exact iff_of_true rfl fun hfeed => h hfeed.1

theorem scans_luaKey (key : QString) (rest : QByteArray) :
    ∃ r, Scans (luaKey key ++ (0x20 :: 0x3d :: 0x20 :: rest)) (keyTokens key) r ∧
      nextToken r = some (.symbol 0x3d, 0x20 :: rest) := by
  have hequals : nextToken (0x20 :: 0x3d :: 0x20 :: rest) = some (.symbol 0x3d, 0x20 :: rest) :=
    (nextToken_space _).trans (scanToken_symbol (by decide) (by simp [joins]))
  by_cases h : luaIdentifier key = true
  · obtain ⟨b, word, tail, htext, hwordOf, hb, hword, hcase⟩ := luaIdentifier_shape h
    refine ⟨tail ++ (0x20 :: 0x3d :: 0x20 :: rest), ?_, ?_⟩
    · rw [luaKey, if_pos h, keyTokens, if_pos h, hwordOf, htext, List.append_assoc]
      refine .single (nextToken_word hb hword ?_)
      rcases hcase with ⟨rfl, -⟩ | ⟨rfl, -⟩ <;> simp [isWord, isLetter, Lua.isDigit]
    · rcases hcase with ⟨rfl, -⟩ | ⟨rfl, -⟩
      · exact hequals
      · exact hequals
  · refine ⟨0x20 :: 0x3d :: 0x20 :: rest, ?_, hequals⟩
    rw [luaKey, if_neg h, keyTokens, if_neg h]
    have hopen : bytes "[" = [0x5b] := by decide
    have hclose : bytes "]" = [0x5d] := by decide
    rw [hopen, hclose, List.append_assoc, List.append_assoc]
    refine .cons (scanToken_symbol (by decide) ?_) (.cons (nextToken_luaString _ _) (.single (scanToken_symbol (by decide) ?_)))
    · have hquote : bytes "\"" = [0x22] := by decide
      simp [joins, luaString, hquote]
    · simp [joins]

end Keys

end HyprShelld.Compositor
