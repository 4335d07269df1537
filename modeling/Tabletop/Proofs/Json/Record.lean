import Tabletop.Proofs.Json.Decode

/-!
# Records by key

A record that is written as an object is read field by field, and each field is looked up by its
key. So it is read when none of its keys is given twice (`asRecord_object_eq_ok_iff`) and each field
can be read from what stands under its key (`field_eq_ok_iff`, `fieldD_eq_ok_iff`).

That the keys of the *record* are given once is all that is asked of an object, and it is enough
for a look-up to be the same as membership (`lookup_eq_some_iff_mem`): the order of the members and
the members under other keys are of no importance. A record that is written as an array is read as
if its items stood under the keys in order (`asRecord_array_eq_ok_iff`).
-/

namespace Tabletop

namespace Json

variable {α : Type} {keys seen : List String} {members members' : Members} {key : String}
  {items : List Json} {j : Json} {a : α}

/-! ## Keys that are given once -/

/-- Whether no key of a record is given twice. -/
def NoneTwice (keys : List String) (members : Members) : Prop :=
  ((members.map Prod.fst).filter (keys.contains ·)).Nodup

/-- What was seen before counts as given. -/
theorem repeated?_eq_none_iff (hseen : seen ⊆ keys) (position : Nat) :
    repeated? keys seen position members = none ↔
      NoneTwice keys members ∧ ∀ key ∈ members.map Prod.fst, key ∉ seen := by
  induction members generalizing seen position with
  | nil => simp [repeated?, NoneTwice]
  | cons m members ih =>
    obtain ⟨key, j⟩ := m
    rw [repeated?, NoneTwice, List.map_cons, List.forall_mem_cons]
    by_cases hkey : key ∈ seen
    · simp [hkey]
    · rw [if_neg (by simpa using hkey), and_iff_right hkey]
      by_cases hknown : key ∈ keys
      · rw [if_pos (by simpa using hknown),
          ih (List.cons_subset.mpr ⟨hknown, hseen⟩) (position + 1),
          List.filter_cons_of_pos (by simpa using hknown), List.nodup_cons, ← NoneTwice]
        simp only [List.mem_cons, not_or, List.mem_filter, List.contains_iff_mem, hknown, and_true]
        constructor
        · rintro ⟨hrest, hother⟩
          exact ⟨⟨fun hmem ↦ (hother key hmem).1 rfl, hrest⟩, fun k hk ↦ (hother k hk).2⟩
        · rintro ⟨⟨hmem, hrest⟩, hother⟩
          exact ⟨hrest, fun k hk ↦ ⟨fun heq ↦ hmem (heq ▸ hk), hother k hk⟩⟩
      · rw [if_neg (by simpa using hknown), ih hseen (position + 1),
          List.filter_cons_of_neg (by simpa using hknown), ← NoneTwice]

theorem repeated?_nil_eq_none_iff :
    repeated? keys [] 0 members = none ↔ NoneTwice keys members := by
  rw [repeated?_eq_none_iff (List.nil_subset keys), and_iff_left]
  exact fun _ _ ↦ List.not_mem_nil

theorem noneTwice_of_nodup (h : (members.map Prod.fst).Nodup) : NoneTwice keys members :=
  h.filter _

/-- **What is looked up is what is given**, if it is given once. -/
theorem lookup_eq_some_iff_mem (h : NoneTwice keys members) (hkey : key ∈ keys) :
    members.lookup key = some j ↔ (key, j) ∈ members := by
  induction members with
  | nil => simp
  | cons m members ih =>
    obtain ⟨k, i⟩ := m
    rw [NoneTwice, List.map_cons] at h
    by_cases hk : key = k
    · subst hk
      rw [List.filter_cons_of_pos (by simpa using hkey), List.nodup_cons] at h
      have hrest : (key, j) ∉ members := fun hmem ↦
        h.1 (List.mem_filter.mpr ⟨List.mem_map.mpr ⟨_, hmem, rfl⟩, by simpa using hkey⟩)
      simp [hrest, eq_comm]
    · have hrest : NoneTwice keys members := by
        by_cases hknown : k ∈ keys
        · rw [List.filter_cons_of_pos (by simpa using hknown)] at h
          exact (List.nodup_cons.mp h).2
        · rwa [List.filter_cons_of_neg (by simpa using hknown)] at h
      rw [List.lookup_cons, beq_eq_false_iff_ne.mpr hk, ih hrest, List.mem_cons]
      simp [hk]

/-! ## Reading by key -/

variable {decode : Json → Except Fault α}

/-- The check that is made before an object is read. -/
theorem once_eq_ok_iff :
    (match repeated? keys [] 0 members with
      | none => .ok ()
      | some position => .fault position .misshapen : Reading Unit) = .ok () ↔
      NoneTwice keys members := by
  rw [← repeated?_nil_eq_none_iff]
  cases repeated? keys [] 0 members with
  | none => simp
  | some position => simp [Reading.fault, Reading.ok]

theorem asRecord_object_eq_ok_iff {tooLong : Fault} {read : Members → Reading α} :
    asRecord tooLong keys read (object members) = .ok a ↔
      NoneTwice keys members ∧ read members = .ok a := by
  rw [asRecord, Reading.toExcept_eq_ok_iff, Reading.seqRight_eq_ok_iff]
  exact and_congr_left fun _ ↦ once_eq_ok_iff

theorem asRecord_array_eq_ok_iff {tooLong : Fault} {read : Members → Reading α} :
    asRecord tooLong keys read (array items) = .ok a ↔
      items.length ≤ keys.length ∧ read (keys.zip items) = .ok a := by
  rw [asRecord, Reading.toExcept_eq_ok_iff, Reading.seqRight_eq_ok_iff]
  refine and_congr_left fun _ ↦ ?_
  split
  · exact iff_of_true rfl ‹_›
  · exact iff_of_false (by simp [Reading.fault, Reading.ok]) ‹_›

theorem fieldOr_eq_ok_iff {missing : Reading α} :
    fieldOr decode missing key members = .ok a ↔
      (∃ j, members.lookup key = some j ∧ decode j = .ok a) ∨
        members.lookup key = none ∧ missing = .ok a := by
  rw [fieldOr]
  cases members.lookup key with
  | none => simp
  | some j =>
    simp only [Option.some.injEq, exists_eq_left', reduceCtorEq, false_and, or_false]
    exact mapError_eq_ok_iff

theorem field_eq_ok_iff :
    field decode key members = .ok a ↔ ∃ j, members.lookup key = some j ∧ decode j = .ok a := by
  rw [field, fieldOr_eq_ok_iff, or_iff_left]
  simp [Reading.fault, Reading.ok]

theorem fieldD_eq_ok_iff {default : α} :
    fieldD decode default key members = .ok a ↔
      (∃ j, members.lookup key = some j ∧ decode j = .ok a) ∨
        members.lookup key = none ∧ default = a := by
  rw [fieldD, fieldOr_eq_ok_iff, Reading.ok_inj]

/-! ## Sound parts -/

theorem areSound_iff : areSound items = true ↔ ∀ j ∈ items, j.isSound = true := by
  induction items with
  | nil => simp [areSound]
  | cons j items ih => rw [areSound, Bool.and_eq_true, ih, List.forall_mem_cons]

theorem areSoundMembers_iff :
    areSoundMembers members = true ↔ ∀ m ∈ members, m.2.isSound = true := by
  induction members with
  | nil => simp [areSoundMembers]
  | cons m members ih => rw [areSoundMembers, Bool.and_eq_true, ih, List.forall_mem_cons]

end Json

end Tabletop
