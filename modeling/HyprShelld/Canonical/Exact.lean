import HyprShelld.Canonical.SerializerSpec
import HyprShelld.Json.ExactDecimal
import HyprShelld.Json.RoundTrip
import HyprShelld.Json.Sound

/-! The canonical codec is exact: reader and writer admit the same objects, within the
same limits, and each undoes the other. -/
namespace HyprShelld.CanonicalJson
open Json

variable (unicode : Unicode) (conversion : NumberText) (policy : TextPolicy) (limits : Limits)

/-- The text and the line feed its framing adds. -/
def canonicalBytes (v : QJsonValue) (framing : Framing) : QByteArray :=
  toUtf8 (render conversion.printDouble v) ++ if framing = .oneTrailingLineFeed then [0x0a] else []

/-- The objects within the text policy and within the depth and value limits. -/
structure Admits (o : QJsonObject) : Prop where
  values : Admitted unicode policy (.object o)
  depth : (nesting (.object o) : Int) ≤ limits.maximumDepth
  count : (valueCount (.object o) : Int) ≤ limits.maximumValues

/-- The requests the codec does not refuse before looking at the value. -/
structure Ready (framing : Framing) : Prop where
  limits : limitsError limits = none
  framing : validFraming framing = true
  policy : validTextPolicy policy = true

variable {unicode conversion policy limits}

theorem Admits.wellFormed {o : QJsonObject} (h : Admits unicode policy limits o) : WellFormed (.object o) :=
  h.values.mono (fun _ _ => trivial) fun _ => NumberAllowed.held

private theorem initial_within {framing : Framing} (h : Ready policy limits framing) : Within limits {} := by
  have hl := h.limits
  unfold limitsError at hl
  split_ifs at hl with hn
  simp only [not_or, not_lt] at hn
  exact ⟨by simpa using hn.1, by simpa using hn.2.2⟩

private theorem frame_writes (framing : Framing) :
    Writes limits (frame limits framing) True (if framing = .oneTrailingLineFeed then qstr "\n" else []) 0 := by
  have hlf : toUtf8 (qstr "\n") = [0x0a] := by decide
  unfold frame
  split_ifs
  · rw [← hlf]
    exact append_writes limits _ _
  · exact Writes.pure

private theorem canonicalBytes_eq {v : QJsonValue} (h : Admitted unicode policy v) (framing : Framing) :
    toUtf8 (render conversion.printDouble v ++ if framing = .oneTrailingLineFeed then qstr "\n" else []) =
      canonicalBytes conversion v framing := by
  rw [toUtf8_append (isText_rendered conversion h), canonicalBytes]
  split_ifs <;> rfl

variable (conversion) in
/-- A run of the serializer over an object a QJsonObject can hold. -/
theorem serialize_iff {o : QJsonObject} (ho : WellFormed (.object o)) {framing : Framing} {bytes : QByteArray} :
    serialize unicode conversion policy limits (.object o) framing = .ok bytes ↔
      Ready policy limits framing ∧ Admits unicode policy limits o ∧
        ((canonicalBytes conversion (.object o) framing).length : Int) ≤ limits.maximumBytes ∧
        bytes = canonicalBytes conversion (.object o) framing := by
  by_cases hr : Ready policy limits framing
  swap
  · constructor
    · intro h
      unfold serialize at h
      split at h
      · cases h
      rename_i hl
      split_ifs at h with hf hp
      exact absurd ⟨hl, by simpa using hf, by simpa using hp⟩ hr
    · rintro ⟨h, _⟩
      exact absurd h hr
  have hw := ((writeValue_writes unicode conversion policy limits (.object o) ho (qstr "$") 1).bind (fun h => isText_rendered conversion h.1)
      fun _ => frame_writes framing) {}
  have hrun : serialize unicode conversion policy limits (.object o) framing = .ok bytes ↔
      ∃ o', (writeValue unicode conversion policy limits (.object o) (qstr "$") 1 {} >>= fun o =>
        frame limits framing o) = .ok o' ∧ o'.output = bytes := by
    unfold serialize
    simp only [hr.limits, hr.framing, hr.policy, Bool.true_eq_false, if_false, bind_ok_iff, pure_ok_iff]
    constructor
    · rintro ⟨o₁, h₁, o₂, h₂, h⟩
      exact ⟨o₂, ⟨o₁, h₁, h₂⟩, h⟩
    · rintro ⟨o₂, ⟨o₁, h₁, h₂⟩, h⟩
      exact ⟨o₁, h₁, o₂, h₂, h⟩
  rw [hrun]
  have hnest : Nests unicode conversion policy limits 1 (nesting (.object o)) ↔
      (nesting (.object o) : Int) ≤ limits.maximumDepth := by
    simp only [Nests, Fits, nesting, reader]
    push_cast
    omega
  constructor
  · rintro ⟨o', h, rfl⟩
    obtain ⟨⟨⟨hv, hn⟩, _⟩, ⟨hb, hc⟩, rfl⟩ := (hw o' (initial_within hr)).mp h
    simp only [Output.grow, List.nil_append, Nat.zero_add, Nat.add_zero, canonicalBytes_eq hv framing] at hb hc ⊢
    exact ⟨hr, ⟨hv, hnest.mp hn, hc⟩, hb, trivial⟩
  · rintro ⟨_, ⟨hv, hn, hc⟩, hb, rfl⟩
    refine ⟨_, (hw _ (initial_within hr)).mpr ⟨⟨⟨hv, hnest.mpr hn⟩, trivial⟩, ?_, rfl⟩, ?_⟩
    · simp only [Within, Output.grow, List.nil_append, Nat.zero_add, Nat.add_zero, canonicalBytes_eq hv framing]
      exact ⟨hb, hc⟩
    · simp only [Output.grow, List.nil_append, canonicalBytes_eq hv framing]

private theorem readable {v : QJsonValue} (h : Admitted unicode policy v) :
    Readable (reader unicode conversion policy limits) conversion.printDouble v := by
  refine h.mono (fun s hs => ⟨hs.isText, hs⟩) ?_
  rintro _ ⟨q, rfl, hq⟩
  refine ⟨q, rfl, conversion.print_lexeme q hq, ?_⟩
  have hlen : ¬ maximumInt < (conversion.print q).length := by
    have := conversion.print_length q hq
    omega
  have hzero : ¬ (q = 0 ∧ significandNonzero (conversion.print q) = true) := by
    rintro ⟨rfl, h⟩
    rw [conversion.print_zero] at h
    revert h
    decide
  simp only [reader, readerNumber, NumberText.printDouble, hlen, if_false, conversion.read_print q hq, hzero]

private theorem admitted {v : QJsonValue} (h : Produced (reader unicode conversion policy limits) v) :
    Admitted unicode policy v := by
  refine h.mono (fun s ⟨_, path, hp⟩ => (textAllowed_iff s path).mpr hp) ?_
  rintro _ ⟨q, lexeme, rfl, hq⟩
  refine ⟨q, rfl, ?_⟩
  simp only [reader, readerNumber] at hq
  split_ifs at hq
  split at hq
  · rename_i r hr
    split_ifs at hq
    cases hq
    exact conversion.read_binary64 _ _ hr
  all_goals cases hq

private theorem reader_room {o : QJsonObject} :
    Room (reader unicode conversion policy limits) 0 (valueCount (.object o)) ↔
      (valueCount (.object o) : Int) ≤ limits.maximumValues := by
  simp [Room, reader]

variable (conversion) in
/-- The reader returns an object exactly when the limits admit it; its canonical text,
with any whitespace after it, is one text it is read from. -/
theorem readDocument_render_admits {o : QJsonObject} (h : Admits unicode policy limits o) (space : QString)
    (hs : ∀ u ∈ space, Cursor.isWhitespace u = true) :
    readDocument (reader unicode conversion policy limits)
      (render conversion.printDouble (.object o) ++ space) = .ok o :=
  readDocument_render _ _ o space hs (readable h.values) h.depth (reader_room.mpr h.count)

theorem admits_of_readDocument {o : QJsonObject} {text : QString}
    (h : readDocument (reader unicode conversion policy limits) text = .ok o) : Admits unicode policy limits o := by
  obtain ⟨hv, hd, hc⟩ := readDocument_sound _ h
  exact ⟨admitted hv, hd, reader_room.mp hc⟩

private theorem head_brace (o : QJsonObject) (number : Double → QString) :
    ∃ rest, render number (.object o) = unit '\x7b' :: rest := ⟨_, rfl⟩

private theorem utf8_brace (rest : QString) : toUtf8 (unit '\x7b' :: rest) = 0x7b :: toUtf8 rest := by
  have hh : isHighSurrogate (unit '\x7b') = false := by decide
  have hl : isLowSurrogate (unit '\x7b') = false := by decide
  have he : String.utf8EncodeChar (Char.ofNat (unit '\x7b').toNat) = [0x7b] := by decide
  rw [toUtf8.eq_def]
  simp only [hh, hl, he, Bool.false_eq_true, if_false, List.cons_append, List.nil_append]

private theorem unframe_canonical (v : QJsonValue) (framing : Framing) :
    unframe framing (canonicalBytes conversion v framing) = .ok (toUtf8 (render conversion.printDouble v)) := by
  unfold unframe canonicalBytes
  split_ifs with h1 h2
  · simp at h2
  · simp
  · simp

/-- The codec reads exactly the canonical bytes of the objects it admits. -/
theorem parseCanonicalObject_iff {bytes : QByteArray} {framing : Framing} {o : QJsonObject} :
    parseCanonicalObject unicode conversion policy limits bytes framing = .ok o ↔
      Ready policy limits framing ∧ Admits unicode policy limits o ∧ (bytes.length : Int) ≤ limits.maximumBytes ∧
        bytes = canonicalBytes conversion (.object o) framing := by
  constructor
  · intro h
    unfold parseCanonicalObject at h
    split at h
    · cases h
    split_ifs at h
    obtain ⟨payload, _, h⟩ := bind_ok_iff.mp h
    split_ifs at h
    split at h
    · cases h
    obtain ⟨parsed, hp, h⟩ := bind_ok_iff.mp h
    obtain ⟨encoded, he, h⟩ := bind_ok_iff.mp h
    split_ifs at h with hne
    rw [pure_ok_iff] at h
    subst h
    rw [ne_eq, not_not] at hne
    subst hne
    have ha := admits_of_readDocument hp
    obtain ⟨hr, _, hb, hc⟩ := (serialize_iff conversion ha.wellFormed).mp he
    exact ⟨hr, ha, hc ▸ hb, hc⟩
  · rintro ⟨hr, ha, hb, rfl⟩
    have hs := (serialize_iff conversion ha.wellFormed).mpr ⟨hr, ha, hb, rfl⟩
    have hread := readDocument_render_admits conversion ha [] (by simp)
    rw [List.append_nil] at hread
    obtain ⟨rest, hrest⟩ := head_brace o conversion.printDouble
    have hbom : byteOrderMark.isPrefixOf (toUtf8 (render conversion.printDouble (.object o))) = false := by
      rw [hrest, utf8_brace]
      rfl
    have hdecode := decodeUtf8_toUtf8 (isText_rendered conversion ha.values)
      (by rw [hrest]; simp [unit])
    unfold parseCanonicalObject
    simp only [hr.limits, hr.framing, hr.policy, Bool.true_eq_false, if_false, not_lt.mpr hb,
      unframe_canonical, bind, Except.bind, hbom, Bool.false_eq_true, hdecode, hread, hs, ne_eq, not_true_eq_false]
    rfl

theorem admits_iff_readDocument {o : QJsonObject} :
    (∃ text, readDocument (reader unicode conversion policy limits) text = .ok o) ↔
      Admits unicode policy limits o := by
  constructor
  · rintro ⟨text, h⟩
    exact admits_of_readDocument h
  · intro h
    exact ⟨_, readDocument_render_admits conversion h [] (by simp)⟩

/-- Serializing and parsing undo each other, the canonical bytes are the only ones read,
and the reader's limits and text checks admit the same objects as the writer's. -/
theorem canonicalCodec_exact (unicode : Unicode) (conversion : NumberText) (policy : TextPolicy)
    (limits : Limits) (framing : Framing) :
    (∀ o bytes, WellFormed (.object o) →
      serialize unicode conversion policy limits (.object o) framing = .ok bytes →
      parseCanonicalObject unicode conversion policy limits bytes framing = .ok o) ∧
    (∀ bytes o, parseCanonicalObject unicode conversion policy limits bytes framing = .ok o →
      WellFormed (.object o) ∧ bytes = canonicalBytes conversion (.object o) framing ∧
        serialize unicode conversion policy limits (.object o) framing = .ok bytes) ∧
    (∀ o, WellFormed (.object o) → Ready policy limits framing →
      ((canonicalBytes conversion (.object o) framing).length : Int) ≤ limits.maximumBytes →
      ((∃ text, readDocument (reader unicode conversion policy limits) text = .ok o) ↔
        ∃ bytes, serialize unicode conversion policy limits (.object o) framing = .ok bytes)) := by
  refine ⟨?_, ?_, ?_⟩
  · intro o bytes ho hs
    obtain ⟨hr, ha, hb, rfl⟩ := (serialize_iff conversion ho).mp hs
    exact parseCanonicalObject_iff.mpr ⟨hr, ha, hb, rfl⟩
  · intro bytes o hp
    obtain ⟨hr, ha, hb, rfl⟩ := parseCanonicalObject_iff.mp hp
    exact ⟨ha.wellFormed, rfl, (serialize_iff conversion ha.wellFormed).mpr ⟨hr, ha, hb, rfl⟩⟩
  · intro o ho hr hb
    rw [admits_iff_readDocument]
    constructor
    · intro ha
      exact ⟨_, (serialize_iff conversion ho).mpr ⟨hr, ha, hb, rfl⟩⟩
    · rintro ⟨bytes, hs⟩
      exact ((serialize_iff conversion ho).mp hs).2.1

/-- Character tables that know the C0 and C1 controls and no decompositions. -/
def plainUnicode : Unicode where
  isControlOrFormat n := n < 0x20 || 0x7f ≤ n && n < 0xa0
  normalizationFormC := id

private def sampleObject : QJsonObject :=
  [(qstr "a", .array [.double (.finite 3), .bool true]), (qstr "b", .string (qstr "x\n\"y"))]

private def sampleBytes : QByteArray :=
  toUtf8 (qstr "\x7b\"a\":[3,true],\"b\":\"x\\n\\\"y\"\x7d")

theorem canonicalCodec_exact_sample :
    parseCanonicalObject plainUnicode exactDecimal .rfc8785 {} sampleBytes .bare = .ok sampleObject :=
  (canonicalCodec_exact plainUnicode exactDecimal .rfc8785 {} .bare).1 sampleObject sampleBytes
    (by
      have h3 : IsBinary64 3 := binary64_small (z := 3) (by decide)
      exact ⟨by decide, trivial, ⟨.inl h3, trivial, trivial⟩, trivial, trivial, trivial⟩)
    (by decide +kernel)

end HyprShelld.CanonicalJson
