import HyprShelld.Canonical.Codec
import HyprShelld.Canonical.Number
import HyprShelld.Canonical.Writes
import HyprShelld.Json.Limits

/-! The serializer writes exactly the values whose strings, numbers, nesting, count and
bytes are within the limits, and writes them as the canonical text. -/
namespace HyprShelld.CanonicalJson
open Json

section Fits

variable {ε : Type} {d : Dialect ε}

theorem fits_max {depth a b : Nat} : Fits d depth (max a b) ↔ Fits d depth a ∧ Fits d depth b := by
  unfold Fits
  push_cast
  omega

theorem fits_succ {depth n : Nat} :
    Fits d depth (1 + n) ↔ ¬ d.maximumDepth < (depth : Int) ∧ Fits d (depth + 1) n := by
  unfold Fits
  push_cast
  omega

end Fits

variable {unicode : Unicode} {conversion : NumberText} {policy : TextPolicy} {limits : Limits}

theorem writeUnits_writes (path : QString) {s : QString} (h : IsText s) :
    Writes limits (writeUnits limits path s) True (escape s) 0 := by
  obtain ⟨cs, hs⟩ := Option.isSome_iff_exists.mp ((isText_iff s).mp h)
  induction s using scalars.induct generalizing cs with
  | case1 => exact Writes.pure
  | case2 u hu => simp [scalars, hu] at hs
  | case3 u hu v s hv ih =>
    have ht := (isText_cons_pair hu hv).mp h
    obtain ⟨ds, hd⟩ := Option.isSome_iff_exists.mp ((isText_iff s).mp ht)
    have hpair : IsText [u, v] := (isText_cons_pair hu hv).mpr isText_nil
    have hb := (append_writes limits [u, v] path).bind (fun _ => hpair) fun _ => ih ht ds hd
    rw [escape_pair s hu hv]
    have he : writeUnits limits path (u :: v :: s) =
        fun o => append limits (toUtf8 [u, v]) path o >>= writeUnits limits path s := by
      funext o
      rw [writeUnits, if_pos hu]
    rw [he]
    exact hb.congr (by simp) (fun _ => rfl) rfl
  | case4 u hu v s hv => simp [scalars, hu, hv] at hs
  | case5 u s hu hl =>
    rw [scalars.eq_def] at hs
    simp [hu, hl] at hs
  | case6 u s hu hl ih =>
    have hu' := Bool.eq_false_iff.mpr hu
    have hl' := Bool.eq_false_iff.mpr hl
    have ht := (isText_cons_single hu' hl').mp h
    obtain ⟨ds, hd⟩ := Option.isSome_iff_exists.mp ((isText_iff s).mp ht)
    have hb := (append_writes limits (escapeUnit u) path).bind
      (fun _ => isText_escapeUnit hu' hl') fun _ => ih ht ds hd
    rw [escape_single s hu' hl']
    have he : writeUnits limits path (u :: s) =
        fun o => append limits (toUtf8 (escapeUnit u)) path o >>= writeUnits limits path s := by
      funext o
      rw [writeUnits.eq_def]
      simp only [hu', Bool.false_eq_true, if_false]
    rw [he]
    exact hb.congr (by simp) (fun _ => rfl) rfl

variable (unicode policy limits) in
theorem writeString_writes (text path : QString) :
    Writes limits (writeString unicode policy limits text path) (TextAllowed unicode policy text)
      (renderString text) 0 := by
  have hq : IsText (qstr "\"") := isText_qstr _
  refine (Writes.check (textAllowed_iff text path).symm fun ha =>
    (append_writes limits (qstr "\"") path).bind (fun _ => hq) fun _ =>
      (writeUnits_writes path ha.isText).bind (fun _ => isText_escape _) fun _ =>
        append_writes limits (qstr "\"") path).congr ?_ ?_ rfl
  · simp
  · exact fun _ => rfl

variable (conversion limits) in
theorem writeNumber_writes {x : Double} (hx : Held x) (path : QString) :
    Writes limits (writeNumber conversion limits x path) (NumberAllowed x) (conversion.printDouble x) 0 := by
  intro o o' ho
  have happend (q : ℚ) := append_writes limits (conversion.print q) path o o' ho
  unfold writeNumber
  rw [bind_ok_iff]
  constructor
  · rintro ⟨q, hq, ha⟩
    obtain ⟨rfl, hb⟩ := (jsonNumber_ok_iff hx path).mp hq
    exact ⟨⟨q, rfl, hb⟩, ((happend q).mp ha).2⟩
  · rintro ⟨⟨q, rfl, hb⟩, hw⟩
    exact ⟨q, (jsonNumber_ok_iff hx path).mpr ⟨rfl, hb⟩, (happend q).mpr ⟨trivial, hw⟩⟩

/-- What QJsonValue can hold: sorted keys, held numbers and any strings. -/
abbrev WellFormed : QJsonValue → Prop := Valid (fun _ => True) Held

section Admitted

variable (unicode conversion policy limits)

/-- Values both sides of the codec admit, as far as strings and numbers go. -/
abbrev Admitted : QJsonValue → Prop := Valid (TextAllowed unicode policy) NumberAllowed

abbrev AdmittedItems : List QJsonValue → Prop := ValidItems (TextAllowed unicode policy) NumberAllowed

abbrev AdmittedMembers : List (QString × QJsonValue) → Prop :=
  ValidMembers (TextAllowed unicode policy) NumberAllowed

/-- Room for this nesting at a depth. -/
abbrev Nests (depth n : Nat) : Prop := Fits (reader unicode conversion policy limits) depth n

end Admitted

private theorem isText_number {x : Double} (h : NumberAllowed x) : IsText (conversion.printDouble x) := by
  obtain ⟨q, rfl, hq⟩ := h
  exact isText_lexeme (conversion.print_lexeme q hq)

variable (conversion) in
theorem isText_rendered {v : QJsonValue} (h : Admitted unicode policy v) :
    IsText (render conversion.printDouble v) :=
  isText_render (fun _ => isText_number) h

variable (limits) in
theorem separate_writes (index : Nat) (path : QString) :
    Writes limits (separate limits index path) True (if 0 < index then qstr "," else []) 0 := by
  unfold separate
  split_ifs
  · exact append_writes limits _ _
  · exact Writes.pure

private theorem memberWriters_sorted {entries : QJsonObject} (h : QJsonObject.Sorted entries) :
    (memberWriters unicode conversion policy limits entries).insertionSort keyLess =
      memberWriters unicode conversion policy limits entries := by
  have hmap (l : QJsonObject) : memberWriters unicode conversion policy limits l =
      l.map fun e => (e.1, writeValue unicode conversion policy limits e.2) := by
    induction l with
    | nil => rfl
    | cons e l ih =>
      obtain ⟨k, v⟩ := e
      rw [memberWriters, ih, List.map_cons]
  apply List.Pairwise.insertionSort_eq
  rw [hmap, List.pairwise_map]
  exact h

private theorem countFirst (path : QString) {f : Output → Except Error Output} {good : Prop} {t : QString}
    {n : Nat} (h : Writes limits f good t n) :
    Writes limits (fun o => countValue limits path o >>= f) good t (1 + n) :=
  ((countValue_writes limits path).bind (fun _ => isText_nil) fun _ => h).congr (by simp) (fun _ => rfl) rfl

/-- A writer between brackets, where the depth allows it. -/
private theorem bracketed {f : Output → Except Error Output} {good : Prop} {t : QString} {n : Nat}
    (path : QString) (depth : Nat) (opening closing : String) (h : Writes limits f good t n)
    (ht : good → IsText t) :
    Writes limits (fun o =>
      if limits.maximumDepth < (depth : Int) then .error (depthLimit path)
      else append limits (toUtf8 (qstr opening)) path o >>= fun o => f o >>= fun o =>
        append limits (toUtf8 (qstr closing)) path o)
      (¬ limits.maximumDepth < (depth : Int) ∧ good) (qstr opening ++ (t ++ qstr closing)) n := by
  by_cases hd : limits.maximumDepth < (depth : Int)
  · simp only [hd, if_true]
    exact (Writes.error _ [] n).congr (by simp) (fun h => h.elim) rfl
  · simp only [hd, if_false]
    exact ((append_writes limits _ path).bind (fun _ => isText_qstr opening) fun _ =>
      h.bind ht fun _ => append_writes limits _ path).congr (by simp) (fun _ => rfl) (by omega)

variable (unicode conversion policy limits)

mutual
theorem writeValue_writes : ∀ (v : QJsonValue), WellFormed v → ∀ (path : QString) (depth : Nat),
    Writes limits (writeValue unicode conversion policy limits v path depth)
      (Admitted unicode policy v ∧ Nests unicode conversion policy limits depth (nesting v))
      (render conversion.printDouble v) (valueCount v)
  | .undefined, hv, _, _ => hv.elim
  | .null, _, path, depth => by
    have h := countFirst path (append_writes limits (qstr "null") path)
    exact h.congr (by simp [Valid, nesting, Fits]) (fun _ => rfl) rfl
  | .bool b, _, path, depth => by
    have h := countFirst path
      (append_writes limits (qstr (if b then "true" else "false")) path)
    exact h.congr (by simp [Valid, nesting, Fits]) (fun _ => by cases b <;> rfl) rfl
  | .double x, hv, path, depth => by
    have h := countFirst path (writeNumber_writes conversion limits hv path)
    exact h.congr (by simp [Valid, nesting, Fits]) (fun _ => rfl) rfl
  | .string s, _, path, depth => by
    have h := countFirst path
      (writeString_writes unicode policy limits s path)
    exact h.congr (by simp [Valid, nesting, Fits]) (fun _ => rfl) rfl
  | .array items, hv, path, depth => by
    have hi := writeElements_writes items hv path depth 0
    have h := countFirst path (bracketed path depth "[" "]" hi fun h =>
      isText_renderItems (fun _ => isText_number) h.1)
    refine h.congr ?_ (fun _ => rfl) rfl
    simp only [nesting, fits_succ, Valid, reader]
    tauto
  | .object entries, hv, path, depth => by
    have hm := writeMembers_writes entries hv.2 path depth 0
    have h := countFirst path (bracketed path depth "\x7b" "\x7d" hm fun h =>
      isText_renderMembers (fun _ => isText_number) h.1)
    have hw : writeValue unicode conversion policy limits (.object entries) path depth =
        fun o => countValue limits path o >>=
          writeObject unicode policy limits (memberWriters unicode conversion policy limits entries) path depth := rfl
    rw [hw]
    unfold writeObject
    rw [memberWriters_sorted hv.1]
    refine h.congr ?_ (fun _ => rfl) rfl
    have hs := hv.1
    simp only [nesting, fits_succ, Valid, reader, hs, true_and]
    tauto

theorem writeElements_writes : ∀ (items : List QJsonValue), ValidItems (fun _ => True) Held items →
    ∀ (path : QString) (depth index : Nat),
    Writes limits (writeElements limits path depth index (elementWriters unicode conversion policy limits items))
      (AdmittedItems unicode policy items ∧
        Nests unicode conversion policy limits (depth + 1) (itemsNesting items))
      (if 0 < index then items.flatMap fun v => unit ',' :: render conversion.printDouble v
        else renderItems conversion.printDouble items) (itemsCount items)
  | [], _, path, depth, index => by
    refine Writes.pure.congr (by simp [ValidItems, itemsNesting, Fits]) (fun _ => ?_) rfl
    split_ifs
    · rfl
    · rw [renderItems]
  | v :: items, hv, path, depth, index => by
    have hvalue := writeValue_writes v hv.1 (elementPath path index) (depth + 1)
    have hrest := writeElements_writes items hv.2 path depth (index + 1)
    have hsep : IsText (if 0 < index then qstr "," else []) := by
      split_ifs
      · exact isText_qstr _
      · exact isText_nil
    have h := (separate_writes limits index path).bind (fun _ => hsep) fun _ =>
      hvalue.bind (fun h => isText_rendered conversion h.1) fun _ => hrest
    refine h.congr ?_ (fun _ => ?_) (by simp only [itemsCount]; omega)
    · simp only [ValidItems, itemsNesting, fits_max]
      tauto
    · rw [if_pos (Nat.succ_pos index), renderItems_cons_eq, List.flatMap_cons]
      split_ifs <;> rfl

theorem writeMembers_writes : ∀ (entries : List (QString × QJsonValue)),
    ValidMembers (fun _ => True) Held entries → ∀ (path : QString) (depth index : Nat),
    Writes limits
      (writeMembers unicode policy limits path depth index (memberWriters unicode conversion policy limits entries))
      (AdmittedMembers unicode policy entries ∧
        Nests unicode conversion policy limits (depth + 1) (membersNesting entries))
      (if 0 < index then entries.flatMap fun e => unit ',' :: renderMember conversion.printDouble e
        else renderMembers conversion.printDouble entries) (membersCount entries)
  | [], _, path, depth, index => by
    refine Writes.pure.congr (by simp [ValidMembers, membersNesting, Fits]) (fun _ => ?_) rfl
    split_ifs
    · rfl
    · rw [renderMembers]
  | (k, v) :: entries, hv, path, depth, index => by
    have hvalue := writeValue_writes v hv.2.1 (childPath path k) (depth + 1)
    have hrest := writeMembers_writes entries hv.2.2 path depth (index + 1)
    have hsep : IsText (if 0 < index then qstr "," else []) := by
      split_ifs
      · exact isText_qstr _
      · exact isText_nil
    have h := (separate_writes limits index path).bind (fun _ => hsep) fun _ =>
      (writeString_writes unicode policy limits k (childPath path k)).bind
        (fun _ => isText_renderString _) fun _ =>
          (append_writes limits (qstr ":") (childPath path k)).bind (fun _ => isText_qstr _) fun _ =>
            hvalue.bind (fun h => isText_rendered conversion h.1) fun _ => hrest
    refine h.congr ?_ (fun _ => ?_) (by simp only [membersCount]; omega)
    · simp only [ValidMembers, membersNesting, fits_max]
      tauto
    · rw [if_pos (Nat.succ_pos index), renderMembers_cons_eq, List.flatMap_cons, renderMember]
      split_ifs <;> simp [qstr, utf16, utf16Unit, unit]
end

end HyprShelld.CanonicalJson
