import HyprShelld.Coordinator.PlanController
import HyprShelld.Coordinator.PlanFacts

/-! What a persist stores is what a later read finds, and what one commit can do. -/
namespace HyprShelld
open Components HealthStore Json

namespace HealthStore
variable {number : NumberText}

theorem parseRecord_path (path path' : QString) {value : QJsonValue} {record : ComponentRuntimeHealthRecord} :
    parseRecord path value = .ok record ↔ parseRecord path' value = .ok record := by
  simp only [parseRecord, bind_ok_iff, require_ok_iff]

theorem parseRecords_path (path path' : QString) {values : List QJsonValue}
    {records result : QMap ComponentRuntimeHealthRecord} :
    parseRecords path values records = .ok result ↔ parseRecords path' values records = .ok result := by
  induction values generalizing records with
  | nil => rfl
  | cons value values ih =>
    simp only [parseRecords, bind_ok_iff, require_ok_iff, parseRecord_path path path',
      ih]

theorem parseActivation_path (path path' : QString) {value : QJsonValue}
    {activation : ComponentRuntimePendingActivation} :
    parseActivation path value = .ok activation ↔ parseActivation path' value = .ok activation := by
  simp only [parseActivation, bind_ok_iff, require_ok_iff]

theorem parsePending_path (path path' : QString) {values : List QJsonValue}
    {pending result : QMap ComponentRuntimePendingActivation} :
    parsePending path values pending = .ok result ↔ parsePending path' values pending = .ok result := by
  induction values generalizing pending with
  | nil => rfl
  | cons value values ih =>
    simp only [parsePending, bind_ok_iff, require_ok_iff, parseActivation_path path path',
      ih]

/-- The path of a file is in its errors only. -/
theorem parseRoot_path {path path' : QString} {root : QJsonObject} {state : ComponentRuntimeHealthState} :
    parseRoot path root = .ok state ↔ parseRoot path' root = .ok state := by
  simp only [parseRoot, bind_ok_iff, require_ok_iff, orError_ok_iff, parseRecords_path path path',
    parsePending_path path path']

theorem parseState_valid_iff {path : QString} {bytes : QByteArray} {state : ComponentRuntimeHealthState} :
    ((parseState number path bytes).status = .valid ∧ (parseState number path bytes).state = state) ↔
      ∃ root, (parseStrictJsonObject number bytes ⟨maximumHealthBytes, 8⟩).value = some root ∧
        parseRoot path root = .ok state := by
  unfold parseState
  cases hp : (parseStrictJsonObject number bytes ⟨maximumHealthBytes, 8⟩).value with
  | none => simp [readFailure]
  | some root =>
    cases hr : parseRoot path root with
    | error refusal =>
      have hstatus : refusal.status ≠ .valid := by
        unfold Refusal.status
        split_ifs <;> simp
      simp [readFailure, hstatus, hr]
    | ok read => simp [readSuccess, hr]

/-- A state that reads back from its own bytes. -/
def Stored (number : NumberText) (bytes : QByteArray) (state : ComponentRuntimeHealthState) : Prop :=
  ∀ path, (parseState number path bytes).status = .valid ∧ (parseState number path bytes).state = state

theorem stored_of_parseState {path : QString} {bytes : QByteArray} {state : ComponentRuntimeHealthState}
    (h : (parseState number path bytes).status = .valid ∧ (parseState number path bytes).state = state) :
    Stored number bytes state := by
  intro path'
  rw [parseState_valid_iff] at h ⊢
  obtain ⟨root, hroot, h⟩ := h
  exact ⟨root, hroot, parseRoot_path.mp h⟩

theorem Stored.unique {bytes : QByteArray} {a b : ComponentRuntimeHealthState} (ha : Stored number bytes a)
    (hb : Stored number bytes b) : a = b := (ha []).2.symm.trans (hb []).2

/-- What can be parsed is within the limit, so that reading the file gets as far. -/
theorem Stored.length {bytes : QByteArray} {state : ComponentRuntimeHealthState} (h : Stored number bytes state) :
    (bytes.length : Int) ≤ maximumHealthBytes := by
  obtain ⟨root, hroot, _⟩ := parseState_valid_iff.mp (h [])
  by_contra hlong
  have hlong : maximumHealthBytes < (bytes.length : Int) := by omega
  have hlimits : ¬ (maximumHealthBytes ≤ 0 ∨ (8 : Int) ≤ 0) := by decide
  simp only [parseStrictJsonObject, if_neg hlimits, if_pos hlong] at hroot
  cases hroot

theorem readFile_stored (path : QString) {bytes : QByteArray} {state : ComponentRuntimeHealthState}
    (h : Stored number bytes state) :
    (readFile number path none (some bytes)).status = .valid ∧ (readFile number path none (some bytes)).state = state := by
  have hlength := h.length
  rw [readFile, if_neg (by omega)]
  exact h path

variable (number) in
/-- A persist that is durable leaves files that hold the state, the recovery file first. -/
theorem persist_cases (faults : PersistFaults) (files : HealthFiles) (state : ComponentRuntimeHealthState) :
    ((persist number faults files state).1 = [] ∧ (persist number faults files state).2.durable = false) ∨
      ((persist number faults files state).2.durable = true ∧ Stored number (serialize number state) state ∧
        ((persist number faults files state).1 = [{ files with recovery := some (serialize number state) }] ∨
          (persist number faults files state).1 = [{ files with recovery := some (serialize number state) },
            ⟨some (serialize number state), some (serialize number state)⟩])) := by
  unfold persist
  simp only []
  split_ifs with hvalid
  · exact .inl ⟨rfl, rfl⟩
  · push Not at hvalid
    have hstored := stored_of_parseState hvalid
    split
    · exact .inl ⟨rfl, rfl⟩
    · split
      · exact .inl ⟨rfl, rfl⟩
      · split
        · exact .inr ⟨rfl, hstored, .inl rfl⟩
        · exact .inr ⟨rfl, hstored, .inr rfl⟩

/-- The state the files hold: the recovery file is the commit point and the active one may lag behind. -/
inductive Durable (number : NumberText) : HealthFiles → ComponentRuntimeHealthState → Prop where
  | fresh : Durable number ⟨none, none⟩ {}
  | committed {active : Option QByteArray} {state : ComponentRuntimeHealthState}
      (stored : Stored number (serialize number state) state)
      (behind : ∀ bytes ∈ active, ∃ old, Stored number bytes old ∧ (old.revision < state.revision ∨ old = state)) :
      Durable number ⟨active, some (serialize number state)⟩ state

theorem Durable.unique {files : HealthFiles} {a b : ComponentRuntimeHealthState} (ha : Durable number files a)
    (hb : Durable number files b) : a = b := by
  generalize hf : files = other at hb
  cases ha with
  | fresh =>
    cases hb with
    | fresh => rfl
    | committed => cases hf
  | committed stored =>
    cases hb with
    | fresh => cases hf
    | committed stored' =>
      injection hf with _ hr
      rw [Option.some.inj hr] at stored
      exact stored.unique stored'

/-- A durable persist of a later state moves the files on to it, and so does each of its writes. -/
theorem Durable.persist {files : HealthFiles} {state next : ComponentRuntimeHealthState} (faults : PersistFaults)
    (h : Durable number files state) (hlater : state.revision < next.revision) :
    ∀ files' ∈ (HealthStore.persist number faults files next).1, Durable number files' next := by
  have hbehind : ∀ bytes ∈ files.active, ∃ old, Stored number bytes old ∧ (old.revision < next.revision ∨ old = next) := by
    cases h with
    | fresh => simp
    | committed _ behind =>
      intro bytes hb
      obtain ⟨old, hold, hr⟩ := behind bytes hb
      refine ⟨old, hold, .inl ?_⟩
      rcases hr with hr | rfl
      · exact UInt64.lt_trans hr hlater
      · exact hlater
  intro files' hf
  rcases persist_cases number faults files next with ⟨hw, _⟩ | ⟨_, hstored, hw | hw⟩
  · rw [hw] at hf
    cases hf
  · rw [hw, List.mem_singleton] at hf
    rw [hf]
    exact .committed hstored hbehind
  · rw [hw] at hf
    rcases List.mem_cons.mp hf with rfl | hf
    · exact .committed hstored hbehind
    · rw [List.mem_singleton.mp hf]
      refine .committed hstored ?_
      rintro bytes ⟨⟩
      exact ⟨next, hstored, .inr rfl⟩

/-- A load either finds the durable state, repairing at most the active file, or fails and changes nothing. -/
theorem Durable.load {files : HealthFiles} {state : ComponentRuntimeHealthState} (faults : LoadFaults)
    (h : Durable number files state) :
    ((HealthStore.load number faults files).2.success = true ∧ (HealthStore.load number faults files).2.state = state ∧
        Durable number (HealthStore.load number faults files).1 state) ∨
      ((HealthStore.load number faults files).2.success = false ∧ (HealthStore.load number faults files).1 = files ∧
        (HealthStore.load number faults files).2.state = { safeMode := true }) := by
  have hfault (path : QString) (fault : StorageFault) (file : Option QByteArray) :
      (readFile number path (some fault) file).status = .unreadable := rfl
  have hmissing (path : QString) : (readFile number path none none).status = .missing := rfl
  cases h with
  | fresh =>
    unfold HealthStore.load
    cases hfa : faults.active <;> cases hfr : faults.recovery <;>
      simp [hfault, hmissing, loadFailure, Durable.fresh]
  | @committed active state stored behind =>
    have hrecovery := readFile_stored recoveryFile stored
    have hrepaired : Durable number ⟨some (serialize number state), some (serialize number state)⟩ state := by
      refine .committed stored ?_
      rintro bytes ⟨⟩
      exact ⟨state, stored, .inr rfl⟩
    unfold HealthStore.load
    cases hfr : faults.recovery with
    | some fault => simp [hfault, loadFailure]
    | none =>
      cases hfa : faults.active with
      | some fault => simp [hfault, loadFailure]
      | none =>
        cases active with
        | none =>
          cases hf : faults.repair <;> simp [hmissing, hrecovery.1, hrecovery.2, loadFailure, hrepaired]
        | some bytes =>
          obtain ⟨old, hold, hr⟩ := behind bytes rfl
          have hactive := readFile_stored activeFile hold
          simp only [hactive.1, hactive.2, hrecovery.1, hrecovery.2]
          rcases hr with hr | rfl
          · have hne : ¬ old.revision = state.revision := fun h => UInt64.lt_irrefl _ (h ▸ hr)
            cases hf : faults.repair <;> simp [hne, hr, loadFailure, hrepaired]
          · simp [Durable.committed stored behind]

section Written
variable (hplain : number.PlainIntegers)

/-- A state whose strings have a UTF-8 form. -/
structure Textual (state : ComponentRuntimeHealthState) : Prop where
  records : ∀ e ∈ state.records, IsText e.2.componentId ∧ IsText e.2.packageDigest ∧ IsText e.2.state ∧ IsText e.2.reason
  pending : ∀ e ∈ state.pending, IsText e.2.instanceId ∧ IsText e.2.componentId ∧ IsText e.2.packageDigest

include hplain in
theorem persistable_stateObject {state : ComponentRuntimeHealthState} (h : Textual state) :
    Persistable number (.object (stateObject state)) := by
  have hversion := persistableNumber_natCast hplain (n := 1) (by norm_num)
  have hrevision := isText_digits (decimal_digits state.revision.toNat)
  have hrecords : Persistable number (.array (state.records.map fun e => .object (recordObject e.2))) := by
    rw [Persistable, Valid, validItems_iff, List.forall_mem_map]
    intro e he
    obtain ⟨hid, hdigest, hstate, hreason⟩ := h.records e he
    have hcount := persistableNumber_natCast hplain (n := e.2.failureCount.toNat)
      (lt_of_lt_of_le e.2.failureCount.toNat_lt (by norm_num))
    apply valid_ofList
    simp only [List.forall_mem_cons, Valid]
    exact ⟨⟨isText_qstr _, hid⟩, ⟨isText_qstr _, hdigest⟩, ⟨isText_qstr _, hstate⟩, ⟨isText_qstr _, hreason⟩,
      ⟨isText_qstr _, hcount⟩, by simp⟩
  have hpending : Persistable number (.array (state.pending.map fun e => .object (activationObject e.2))) := by
    rw [Persistable, Valid, validItems_iff, List.forall_mem_map]
    intro e he
    obtain ⟨hinstance, hid, hdigest⟩ := h.pending e he
    apply valid_ofList
    simp only [List.forall_mem_cons, Valid]
    exact ⟨⟨isText_qstr _, hinstance⟩, ⟨isText_qstr _, hid⟩, ⟨isText_qstr _, hdigest⟩, by simp⟩
  apply valid_ofList
  simp only [List.forall_mem_cons]
  exact ⟨⟨isText_qstr _, hversion⟩, ⟨isText_qstr _, hrevision⟩, ⟨isText_qstr _, trivial⟩, ⟨isText_qstr _, hrecords⟩,
    ⟨isText_qstr _, hpending⟩, by simp⟩

theorem nesting_stateObject (state : ComponentRuntimeHealthState) : nesting (.object (stateObject state)) ≤ 3 := by
  have hrecords : itemsNesting (state.records.map fun e => .object (recordObject e.2)) ≤ 1 := by
    apply itemsNesting_le
    rw [List.forall_mem_map]
    exact fun e _ => nesting_ofList_le (n := 0) (by simp [nesting])
  have hpending : itemsNesting (state.pending.map fun e => .object (activationObject e.2)) ≤ 1 := by
    apply itemsNesting_le
    rw [List.forall_mem_map]
    exact fun e _ => nesting_ofList_le (n := 0) (by simp [nesting])
  apply nesting_ofList_le (n := 2)
  simp only [List.forall_mem_cons, nesting]
  exact ⟨by omega, by omega, by omega, by omega, by omega, by simp⟩

include hplain in
/-- Reading back what is written of a textual state within the limit is a matter of its fields alone. -/
theorem stored_iff {state : ComponentRuntimeHealthState} (h : Textual state)
    (hsize : ((serialize number state).length : Int) ≤ maximumHealthBytes) :
    Stored number (serialize number state) state ↔ parseRoot [] (stateObject state) = .ok state := by
  have hdepth := nesting_stateObject state
  have hread : (parseStrictJsonObject number (serialize number state) ⟨maximumHealthBytes, 8⟩).value =
      some (stateObject state) := by
    have hobject := parseStrictJsonObject_compactJson ⟨maximumHealthBytes, 8⟩
      (persistable_stateObject hplain h) (show (_ : Int) ≤ 8 by omega) hsize
    rw [serialize, hobject]
  constructor
  · intro hstored
    obtain ⟨root, hroot, hparse⟩ := parseState_valid_iff.mp (hstored [])
    rw [hread] at hroot
    cases hroot
    exact hparse
  · intro hparse path
    exact parseState_valid_iff.mpr ⟨_, hread, parseRoot_path.mp hparse⟩

theorem persist_durable (faults : PersistFaults) (files : HealthFiles) {state : ComponentRuntimeHealthState}
    (h : Stored number (serialize number state) state) (htargets : faults.targets = none)
    (hrecovery : faults.recovery = none) : (persist number faults files state).2.durable = true := by
  have hvalid := h (qstr "<memory>")
  unfold persist
  simp only [hvalid.1, hvalid.2, ne_eq, not_true_eq_false, or_self, if_false, htargets, hrecovery]
  cases faults.active <;> rfl

end Written

end HealthStore
end HyprShelld
