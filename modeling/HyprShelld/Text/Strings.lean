import HyprShelld.Text.Decimal
import HyprShelld.Support.Pattern

/-! The operations of QString that validation uses. -/
namespace HyprShelld

/-- QString::toUcs4, where a lone surrogate becomes the replacement character. -/
def toUcs4 : QString → List Nat
  | [] => []
  | u :: rest =>
    if isHighSurrogate u then
      match rest with
      | [] => [0xfffd]
      | v :: tail =>
        if isLowSurrogate v then surrogateToUcs4 u v :: toUcs4 tail else 0xfffd :: toUcs4 (v :: tail)
    else if isLowSurrogate u then 0xfffd :: toUcs4 rest
    else u.toNat :: toUcs4 rest

/-- QChar::isSpace: ASCII white space, next line, and the separator categories. -/
def isSpace (u : UInt16) : Bool :=
  let n := u.toNat
  n = 0x20 || (0x09 ≤ n && n ≤ 0x0d) || n = 0x85 || n = 0xa0 || n = 0x1680 ||
    (0x2000 ≤ n && n ≤ 0x200a) || n = 0x2028 || n = 0x2029 || n = 0x202f || n = 0x205f || n = 0x3000

/-- The zeros of the decimal digits that are single units. -/
def decimalZeros : List Nat :=
  [0x30, 0x660, 0x6f0, 0x7c0, 0x966, 0x9e6, 0xa66, 0xae6, 0xb66, 0xbe6, 0xc66, 0xce6, 0xd66, 0xde6, 0xe50, 0xed0, 0xf20,
    0x1040, 0x1090, 0x17e0, 0x1810, 0x1946, 0x19d0, 0x1a80, 0x1a90, 0x1b50, 0x1bb0, 0x1c40, 0x1c50, 0xa620, 0xa8d0, 0xa900,
    0xa9d0, 0xa9f0, 0xaa50, 0xabf0, 0xff10]

/-- QChar::isDigit: the category of decimal digits. -/
def isDecimalDigit (u : UInt16) : Bool := decimalZeros.any fun start => start ≤ u.toNat && u.toNat ≤ start + 9

theorem isDecimalDigit_ascii {u : UInt16} (h : u.toNat < 0x660) :
    isDecimalDigit u = true ↔ 0x30 ≤ u.toNat ∧ u.toNat ≤ 0x39 := by
  have hstarts : ∀ start ∈ decimalZeros, start = 0x30 ∨ 0x660 ≤ start := by decide
  simp only [isDecimalDigit, List.any_eq_true, Bool.and_eq_true, decide_eq_true_eq]
  constructor
  · rintro ⟨start, hstart, hle, hge⟩
    rcases hstarts start hstart with rfl | hlarge
    · exact ⟨hle, hge⟩
    · omega
  · exact fun hu => ⟨0x30, by decide, hu⟩

def trimmed (s : QString) : QString := ((s.dropWhile isSpace).reverse.dropWhile isSpace).reverse

def startsWith (s pre : QString) : Bool := pre.isPrefixOf s

/-- Code points below the surrogates are single units. -/
theorem toUcs4_basic {s : QString} (h : ∀ c ∈ toUcs4 s, c < 0xd800) : s.map UInt16.toNat = toUcs4 s := by
  fun_induction toUcs4 s with
  | case1 => rfl
  | case2 => simp at h
  | case3 u hu v tail hv ih =>
    have := h _ List.mem_cons_self
    simp only [isHighSurrogate, Bool.and_eq_true, decide_eq_true_eq] at hu
    simp only [surrogateToUcs4] at this
    omega
  | case4 => simp at h
  | case5 => simp at h
  | case6 u rest hu hl ih =>
    rw [List.map_cons, ih fun c hc => h c (List.mem_cons_of_mem _ hc)]

theorem trimmed_eq {s : QString} (h : ∀ u ∈ s, isSpace u = false) : trimmed s = s := by
  have hd {t : QString} (ht : ∀ u ∈ t, isSpace u = false) : t.dropWhile isSpace = t := by
    cases t with
    | nil => rfl
    | cons u t => rw [List.dropWhile_cons_of_neg (by simp [ht u List.mem_cons_self])]
  rw [trimmed, hd h, hd (by simpa using h), List.reverse_reverse]

/-- QRegularExpression::match of an expression anchored at both ends. -/
def hasMatch (expression : Pattern) (s : QString) : Bool := expression.matchesWhole (toUcs4 s)

def join (parts : List QString) (separator : QString) : QString := separator.intercalate parts

def replaceUnit (s : QString) (before : UInt16) (after : QString) : QString :=
  s.flatMap fun u => if u = before then after else [u]

/-- toLongLong in base ten: white space around the number and one sign are accepted. -/
def toLongLong (s : QString) : Option Int :=
  let (negative, digits) := match trimmed s with
    | u :: rest => if u = unit '-' then (true, rest) else if u = unit '+' then (false, rest) else (false, u :: rest)
    | [] => (false, [])
  if digits = [] then none
  else do
    let magnitude ← decimalValue 0 digits
    let value : Int := if negative then -magnitude else magnitude
    if -2 ^ 63 ≤ value ∧ value < 2 ^ 63 then some value else none

/-- toUInt of canonical digits. -/
def toUInt (s : QString) : Option Nat := (toULongLong s).filter (· < 2 ^ 32)

end HyprShelld
