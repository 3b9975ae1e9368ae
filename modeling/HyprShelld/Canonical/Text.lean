import HyprShelld.Json.Value
import HyprShelld.Support.Except

/-! Errors, limits and the text policies of the canonical JSON codec. -/
namespace HyprShelld.CanonicalJson

structure Error where
  code : QString
  path : QString
  message : QString
  characterOffset : Int := -1
  deriving DecidableEq

structure Limits where
  maximumBytes : Int := 4 * 1024 * 1024
  maximumDepth : Int := 64
  maximumValues : Int := 65536

def makeError (code path message : QString) (characterOffset : Int := -1) : Error :=
  { code, path, message, characterOffset }

def limitsError (limits : Limits) : Option Error :=
  if limits.maximumBytes < 0 ∨ limits.maximumDepth < 0 ∨ limits.maximumValues < 0 then
    some (makeError (qstr "jcs.invalid-limits") (qstr "$") (qstr "Canonical JSON limits cannot be negative."))
  else none

inductive Framing where
  | bare
  | oneTrailingLineFeed
  /-- An enumerator cast from another integer. -/
  | other (value : Int)
  deriving DecidableEq

inductive TextPolicy where
  | rfc8785
  | projectReceipt
  | other (value : Int)
  deriving DecidableEq

def validFraming : Framing → Bool
  | .bare | .oneTrailingLineFeed => true
  | .other _ => false

def validTextPolicy : TextPolicy → Bool
  | .rfc8785 | .projectReceipt => true
  | .other _ => false

def unknownFraming : Error :=
  makeError (qstr "jcs.unknown-framing") (qstr "$") (qstr "The canonical JSON framing is unknown.")

def unknownTextPolicy (path : QString) : Error :=
  makeError (qstr "jcs.unknown-text-policy") path (qstr "The canonical JSON text policy is unknown.")

/-- The Unicode tables of QChar and QString. -/
structure Unicode where
  /-- Category Other_Control or Other_Format. -/
  isControlOrFormat : Nat → Bool
  normalizationFormC : QString → QString

variable (unicode : Unicode) (policy : TextPolicy)

def checkScalar (path : QString) (scalar index : Nat) : Except Error Unit :=
  if policy = .projectReceipt ∧ unicode.isControlOrFormat scalar = true then
    .error (makeError (qstr "jcs.forbidden-control") path
      (qstr "Project receipt text cannot contain Unicode control or format characters.") index)
  else .ok ()

def validateUnits (path : QString) : Nat → QString → Except Error Unit
  | _, [] => .ok ()
  | index, u :: rest =>
    if isHighSurrogate u then
      match rest with
      | [] => .error (makeError (qstr "jcs.invalid-unicode") path
          (qstr "A JSON string contains a lone high surrogate.") index)
      | v :: tail =>
        if isLowSurrogate v then do
          checkScalar unicode policy path (surrogateToUcs4 u v) (index + 1)
          validateUnits path (index + 2) tail
        else .error (makeError (qstr "jcs.invalid-unicode") path
          (qstr "A JSON string contains a lone high surrogate.") index)
    else if isLowSurrogate u then
      .error (makeError (qstr "jcs.invalid-unicode") path
        (qstr "A JSON string contains a lone low surrogate.") index)
    else do
      checkScalar unicode policy path u.toNat index
      validateUnits path (index + 1) rest

def validateText (text path : QString) : Except Error Unit :=
  if validTextPolicy policy = false then .error (unknownTextPolicy path)
  else do
    validateUnits unicode policy path 0 text
    if policy = .projectReceipt ∧ unicode.normalizationFormC text ≠ text then
      .error (makeError (qstr "jcs.non-nfc-text") path (qstr "Project receipt text must already be NFC."))
    else .ok ()

/-- The strings a policy admits; where they stand makes no difference. -/
def TextAllowed (s : QString) : Prop := ∀ path, validateText unicode policy s path = .ok ()

variable {unicode policy}

private theorem checkScalar_anywhere {path : QString} {scalar i : Nat}
    (h : checkScalar unicode policy path scalar i = .ok ()) (path' : QString) (j : Nat) :
    checkScalar unicode policy path' scalar j = .ok () := by
  unfold checkScalar at h ⊢
  split_ifs at h ⊢
  rfl

private theorem validateUnits_anywhere {path : QString} {s : QString} {i : Nat}
    (h : validateUnits unicode policy path i s = .ok ()) (path' : QString) (j : Nat) :
    validateUnits unicode policy path' j s = .ok () := by
  fun_induction validateUnits unicode policy path i s generalizing j with
  | case1 => rfl
  | case2 | case4 | case5 => cases h
  | case3 i u hu v tail hv ih =>
    obtain ⟨⟨⟩, hc, hr⟩ := bind_ok_iff.mp h
    rw [validateUnits, if_pos hu]
    simp only [hv, if_true]
    exact bind_ok_iff.mpr ⟨(), checkScalar_anywhere hc _ _, ih hr _⟩
  | case6 i u rest hu hl ih =>
    obtain ⟨⟨⟩, hc, hr⟩ := bind_ok_iff.mp h
    rw [validateUnits.eq_def]
    simp only [hu, hl]
    exact bind_ok_iff.mpr ⟨(), checkScalar_anywhere hc _ _, ih hr _⟩

private theorem validateUnits_text {path : QString} {s : QString} {i : Nat}
    (h : validateUnits unicode policy path i s = .ok ()) : IsText s := by
  fun_induction validateUnits unicode policy path i s with
  | case1 => exact isText_nil
  | case2 | case4 | case5 => cases h
  | case3 i u hu v tail hv ih =>
    obtain ⟨⟨⟩, _, hr⟩ := bind_ok_iff.mp h
    exact (isText_cons_pair hu hv).mpr (ih hr)
  | case6 i u rest hu hl ih =>
    obtain ⟨⟨⟩, _, hr⟩ := bind_ok_iff.mp h
    exact (isText_cons_single (Bool.eq_false_iff.mpr hu) (Bool.eq_false_iff.mpr hl)).mpr (ih hr)

private theorem validateText_ok {s path : QString} : validateText unicode policy s path = .ok () ↔
    validTextPolicy policy = true ∧ validateUnits unicode policy path 0 s = .ok () ∧
      ¬ (policy = .projectReceipt ∧ unicode.normalizationFormC s ≠ s) := by
  unfold validateText
  by_cases hp : validTextPolicy policy = false
  · simp [hp]
  · have hunit (x : Except Error Unit) : (∃ a, x = .ok a) ↔ x = .ok () :=
      ⟨fun ⟨(), h⟩ => h, fun h => ⟨(), h⟩⟩
    rw [if_neg hp, bind_ok_iff]
    by_cases hn : policy = .projectReceipt ∧ unicode.normalizationFormC s ≠ s
    · simp [hn]
    · simp [hn, hp, hunit]

theorem textAllowed_iff (s path : QString) :
    TextAllowed unicode policy s ↔ validateText unicode policy s path = .ok () := by
  refine ⟨fun h => h path, fun h path' => ?_⟩
  obtain ⟨hp, hu, hn⟩ := validateText_ok.mp h
  exact validateText_ok.mpr ⟨hp, validateUnits_anywhere hu path' 0, hn⟩

theorem TextAllowed.isText {s : QString} (h : TextAllowed unicode policy s) : IsText s :=
  validateUnits_text (validateText_ok.mp (h [])).2.1

end HyprShelld.CanonicalJson
