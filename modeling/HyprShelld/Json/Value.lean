import HyprShelld.Text.Utf16
import Mathlib.Data.Rat.Defs
import Mathlib.Algebra.Order.Ring.Rat
import Mathlib.Tactic.Linarith
import Mathlib.Tactic.NormNum

/-! JSON values as QJsonValue holds them. Numbers carry their exact value: QJsonValue
stores integers and doubles interchangeably and has a single zero. -/
namespace HyprShelld

/-- The finite IEEE-754 binary64 values, both zeros being one value. -/
def IsBinary64 (q : ℚ) : Prop :=
  ∃ m e : ℤ, |m| < 2 ^ 53 ∧ -1074 ≤ e ∧ e ≤ 971 ∧ q = m * 2 ^ e

inductive Double where
  | finite (q : ℚ)
  | infinity (negative : Bool)
  | nan
  deriving DecidableEq

inductive QJsonValue where
  | undefined
  | null
  | bool (b : Bool)
  | double (d : Double)
  | string (s : QString)
  | array (items : List QJsonValue)
  | object (entries : List (QString × QJsonValue))

/-- Members in key order, as QJsonObject iterates over them. -/
abbrev QJsonObject := List (QString × QJsonValue)
abbrev QJsonArray := List QJsonValue

namespace QJsonValue

mutual
def decEq : (a b : QJsonValue) → Decidable (a = b)
  | undefined, b => by cases b <;> first | exact isTrue rfl | exact isFalse (by rintro ⟨⟩)
  | null, b => by cases b <;> first | exact isTrue rfl | exact isFalse (by rintro ⟨⟩)
  | bool a, b => match b with
    | bool b => decidable_of_iff (a = b) (by simp)
    | undefined | null | double _ | string _ | array _ | object _ => isFalse (by rintro ⟨⟩)
  | double a, b => match b with
    | double b => decidable_of_iff (a = b) (by simp)
    | undefined | null | bool _ | string _ | array _ | object _ => isFalse (by rintro ⟨⟩)
  | string a, b => match b with
    | string b => decidable_of_iff (a = b) (by simp)
    | undefined | null | bool _ | double _ | array _ | object _ => isFalse (by rintro ⟨⟩)
  | array a, b => match b with
    | array b => match decEqItems a b with
      | isTrue h => isTrue (by rw [h])
      | isFalse h => isFalse (by simpa using h)
    | undefined | null | bool _ | double _ | string _ | object _ => isFalse (by rintro ⟨⟩)
  | object a, b => match b with
    | object b => match decEqEntries a b with
      | isTrue h => isTrue (by rw [h])
      | isFalse h => isFalse (by simpa using h)
    | undefined | null | bool _ | double _ | string _ | array _ => isFalse (by rintro ⟨⟩)

def decEqItems : (a b : List QJsonValue) → Decidable (a = b)
  | [], [] => isTrue rfl
  | [], _ :: _ => isFalse (by rintro ⟨⟩)
  | _ :: _, [] => isFalse (by rintro ⟨⟩)
  | x :: xs, y :: ys => match decEq x y, decEqItems xs ys with
    | isTrue h, isTrue t => isTrue (by rw [h, t])
    | isFalse h, _ => isFalse (by simp [h])
    | _, isFalse t => isFalse (by simp [t])

def decEqEntries : (a b : List (QString × QJsonValue)) → Decidable (a = b)
  | [], [] => isTrue rfl
  | [], _ :: _ => isFalse (by rintro ⟨⟩)
  | _ :: _, [] => isFalse (by rintro ⟨⟩)
  | (k, x) :: xs, (l, y) :: ys => match decEq x y, decEqEntries xs ys with
    | isTrue h, isTrue t =>
      if e : k = l then isTrue (by rw [e, h, t]) else isFalse (by simp [e])
    | isFalse h, _ => isFalse (by simp [h])
    | _, isFalse t => isFalse (by simp [t])
end

instance : DecidableEq QJsonValue := decEq

def isBool : QJsonValue → Bool
  | bool _ => true
  | _ => false
def isDouble : QJsonValue → Bool
  | double _ => true
  | _ => false
def isString : QJsonValue → Bool
  | string _ => true
  | _ => false
def isArray : QJsonValue → Bool
  | array _ => true
  | _ => false
def isObject : QJsonValue → Bool
  | object _ => true
  | _ => false
def isNull : QJsonValue → Bool
  | null => true
  | _ => false
def toBool : QJsonValue → Bool
  | bool b => b
  | _ => false
def toString : QJsonValue → QString
  | string s => s
  | _ => []
def toArray : QJsonValue → QJsonArray
  | array items => items
  | _ => []
def toObject : QJsonValue → QJsonObject
  | object entries => entries
  | _ => []

end QJsonValue

/-- Compare index by index, then by length. -/
def utf16Less : QString → QString → Bool
  | [], [] => false
  | [], _ :: _ => true
  | _ :: _, [] => false
  | a :: s, b :: t => if a ≠ b then a < b else utf16Less s t

theorem utf16Less_irrefl (s : QString) : utf16Less s s = false := by
  induction s with
  | nil => rfl
  | cons a s ih => simpa [utf16Less] using ih

theorem utf16Less_trans {a b c : QString} (hab : utf16Less a b = true) (hbc : utf16Less b c = true) :
    utf16Less a c = true := by
  induction a generalizing b c with
  | nil =>
    cases c with
    | nil => cases b <;> simp [utf16Less] at hbc
    | cons => rfl
  | cons x a ih =>
    cases b with
    | nil => simp [utf16Less] at hab
    | cons y b =>
      cases c with
      | nil => simp [utf16Less] at hbc
      | cons z c =>
        simp only [utf16Less, ne_eq, ite_not] at hab hbc ⊢
        split at hab
        · subst x
          split at hbc
          · subst y
            simpa using ih hab hbc
          · rename_i h
            simpa [h] using hbc
        · split at hbc
          · subst y
            rename_i h
            simpa [h] using hab
          · simp only [decide_eq_true_eq] at hab hbc
            have hne : x ≠ z := fun h => by
              subst h
              exact absurd (UInt16.lt_trans hab hbc) (UInt16.lt_irrefl x)
            simpa [hne] using UInt16.lt_trans hab hbc

theorem utf16Less_total {a b : QString} (h : a ≠ b) : utf16Less a b = true ∨ utf16Less b a = true := by
  induction a generalizing b with
  | nil =>
    cases b with
    | nil => exact absurd rfl h
    | cons => exact .inl rfl
  | cons x a ih =>
    cases b with
    | nil => exact .inr rfl
    | cons y b =>
      by_cases he : x = y
      · subst he
        have ht : a ≠ b := fun e => h (by rw [e])
        simpa [utf16Less] using ih ht
      · have hs : ¬ y = x := fun e => he e.symm
        simpa [utf16Less, he, hs] using UInt16.lt_or_lt_of_ne he

theorem utf16Less_ne {a b : QString} (h : utf16Less a b = true) : a ≠ b := by
  rintro rfl
  simp [utf16Less_irrefl] at h

namespace QJsonObject

def value (o : QJsonObject) (key : QString) : QJsonValue := (o.lookup key).getD .undefined
def contains (o : QJsonObject) (key : QString) : Bool := (o.lookup key).isSome
def keys (o : QJsonObject) : List QString := o.map (·.1)

def remove (o : QJsonObject) (key : QString) : QJsonObject := o.filter (·.1 ≠ key)

def put (key : QString) (v : QJsonValue) : QJsonObject → QJsonObject
  | [] => [(key, v)]
  | (k, w) :: rest =>
    if key = k then (key, v) :: rest
    else if utf16Less key k then (key, v) :: (k, w) :: rest
    else (k, w) :: put key v rest

/-- Inserting an undefined value removes the key. -/
def insert (o : QJsonObject) (key : QString) (v : QJsonValue) : QJsonObject :=
  if v = .undefined then remove o key else put key v o

/-- The members of a braced initializer, inserted one after another. -/
def ofList (members : List (QString × QJsonValue)) : QJsonObject :=
  members.foldl (fun o m => insert o m.1 m.2) []

/-- Keys strictly ascending in UTF-16 code units, hence without duplicates. -/
def Sorted (o : QJsonObject) : Prop := o.Pairwise fun a b => utf16Less a.1 b.1 = true

instance (o : QJsonObject) : Decidable (Sorted o) := inferInstanceAs (Decidable (o.Pairwise _))

end QJsonObject
end HyprShelld
