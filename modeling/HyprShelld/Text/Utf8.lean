import HyprShelld.Text.Utf16

/-! Bytes of UTF-16 strings, as QString::toUtf8 writes and QStringDecoder reads them. -/
namespace HyprShelld

abbrev QByteArray := List UInt8

def utf8 (cs : List Char) : QByteArray := cs.flatMap String.utf8EncodeChar

/-- A lone surrogate has no UTF-8 form and becomes a question mark. -/
def toUtf8 : QString → QByteArray
  | [] => []
  | u :: rest =>
    if isHighSurrogate u then
      match rest with
      | [] => [0x3f]
      | v :: tail =>
        if isLowSurrogate v then
          String.utf8EncodeChar (Char.ofNat (surrogateToUcs4 u v)) ++ toUtf8 tail
        else 0x3f :: toUtf8 (v :: tail)
    else if isLowSurrogate u then 0x3f :: toUtf8 rest
    else String.utf8EncodeChar (Char.ofNat u.toNat) ++ toUtf8 rest

def decodeScalars (bytes : QByteArray) : Option (List Char) :=
  bytes.toByteArray.utf8Decode?.map Array.toList

/-- The decoder drops one leading byte-order mark. -/
def decodeUtf8 (bytes : QByteArray) : Option QString :=
  match decodeScalars bytes with
  | some (c :: cs) => some (utf16 (if c.toNat = 0xfeff then cs else c :: cs))
  | some [] => some []
  | none => none

theorem decodeScalars_utf8 (cs : List Char) : decodeScalars (utf8 cs) = some cs := by
  have h : (utf8 cs).toByteArray = cs.utf8Encode := rfl
  rw [decodeScalars, h, List.utf8Decode?_utf8Encode]
  rfl

theorem toUtf8_text {s : QString} {cs : List Char} (h : scalars s = some cs) (rest : QString) :
    toUtf8 (s ++ rest) = utf8 cs ++ toUtf8 rest := by
  induction s using scalars.induct generalizing cs with
  | case1 =>
    cases h
    rfl
  | case2 u hu => simp [scalars, hu] at h
  | case3 u hu v s hv ih =>
    rw [scalars_pair _ hu hv, Option.map_eq_map, Option.map_eq_some_iff] at h
    obtain ⟨ds, hd, rfl⟩ := h
    simp [toUtf8, hu, hv, ih hd, utf8]
  | case4 u hu v s hv => simp [scalars, hu, hv] at h
  | case5 u s hu hl =>
    rw [scalars.eq_def] at h
    simp [hu, hl] at h
  | case6 u s hu hl ih =>
    rw [scalars_single _ (Bool.eq_false_iff.mpr hu) (Bool.eq_false_iff.mpr hl), Option.map_eq_map,
      Option.map_eq_some_iff] at h
    obtain ⟨ds, hd, rfl⟩ := h
    rw [List.cons_append, toUtf8.eq_def]
    simp [hu, hl, ih hd, utf8]

theorem toUtf8_append {s : QString} (h : IsText s) (rest : QString) :
    toUtf8 (s ++ rest) = toUtf8 s ++ toUtf8 rest := by
  obtain ⟨cs, hs⟩ := Option.isSome_iff_exists.mp ((isText_iff s).mp h)
  have h0 := toUtf8_text hs []
  rw [List.append_nil, toUtf8, List.append_nil] at h0
  rw [toUtf8_text hs, h0]

theorem toUtf8_injective {s r : QString} (hs : IsText s) (hr : IsText r) (h : toUtf8 s = toUtf8 r) : s = r := by
  obtain ⟨cs, hcs⟩ := Option.isSome_iff_exists.mp ((isText_iff s).mp hs)
  obtain ⟨ds, hds⟩ := Option.isSome_iff_exists.mp ((isText_iff r).mp hr)
  have hc := toUtf8_text hcs []
  have hd := toUtf8_text hds []
  rw [List.append_nil] at hc hd
  rw [hc, hd, toUtf8, List.append_nil, List.append_nil] at h
  have hdecode := congrArg decodeScalars h
  rw [decodeScalars_utf8, decodeScalars_utf8] at hdecode
  rw [← utf16_of_scalars hcs, ← utf16_of_scalars hds, Option.some.inj hdecode]

/-- Text without a leading byte-order mark survives the trip through UTF-8. -/
theorem decodeUtf8_toUtf8 {s : QString} (h : IsText s) (hb : s.head? ≠ some 0xfeff) :
    decodeUtf8 (toUtf8 s) = some s := by
  obtain ⟨cs, hs⟩ := Option.isSome_iff_exists.mp ((isText_iff s).mp h)
  have h0 := toUtf8_text hs []
  rw [List.append_nil, toUtf8, List.append_nil] at h0
  rw [h0, decodeUtf8, decodeScalars_utf8, ← utf16_of_scalars hs]
  cases cs with
  | nil => rfl
  | cons c cs =>
    have hc : c.toNat ≠ 0xfeff := by
      intro hc
      rw [← utf16_of_scalars hs] at hb
      simp [utf16Unit, hc] at hb
    simp only [if_neg hc]

end HyprShelld
