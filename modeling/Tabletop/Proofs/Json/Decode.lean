import Tabletop.Json.Decode
import Tabletop.Proofs.Checks

/-!
# Reading lists and records

When a list or a record is read, and what is known of what was read. Several fields of a record are
read together when each of them is; where it stands in the text matters for faults only.

For what is written and read again, `read_list` and `read_option` go from the parts to the whole.
For what is read from any text, `Yields` says that a reader gives only what has some property,
whatever it is given.
-/

namespace Tabletop

namespace Json

variable {α β : Type}

/-! ## Readings -/

namespace Reading

theorem ok_inj {a b : α} : ok a = ok b ↔ a = b := ⟨Except.ok.inj, congrArg ok⟩

theorem map_eq_ok_iff {f : α → β} {a : Reading α} {b : β} :
    f <$> a = ok b ↔ ∃ x, a = ok x ∧ f x = b := by
  cases a with
  | error e => exact iff_of_false (by rintro ⟨⟩) fun ⟨_, h, _⟩ ↦ by cases h
  | ok x => exact ok_inj.trans ⟨fun h ↦ ⟨x, rfl, h⟩, fun ⟨_, hx, h⟩ ↦ ok_inj.mp hx ▸ h⟩

theorem seq_eq_ok_iff {f : Reading (α → β)} {a : Reading α} {b : β} :
    f <*> a = ok b ↔ ∃ g, f = ok g ∧ ∃ x, a = ok x ∧ g x = b := by
  constructor
  · intro h
    cases f with
    | error e => cases a <;> cases h
    | ok g =>
      cases a with
      | error e => cases h
      | ok x => exact ⟨g, rfl, x, rfl, ok_inj.mp h⟩
  · rintro ⟨g, rfl, x, rfl, rfl⟩
    rfl

theorem seqRight_eq_ok_iff {u : Reading Unit} {a : Reading α} {b : α} :
    u *> a = ok b ↔ u = ok () ∧ a = ok b := by
  constructor
  · intro h
    cases u with
    | error e => cases a <;> cases h
    | ok u =>
      cases a with
      | error e => cases h
      | ok x => exact ⟨rfl, h⟩
  · rintro ⟨rfl, rfl⟩
    rfl

theorem toExcept_eq_ok_iff {r : Reading α} {a : α} : r.toExcept = .ok a ↔ r = ok a :=
  mapError_eq_ok_iff

theorem map_ok {f : α → β} {a : Reading α} {x : α} (h : a = ok x) : f <$> a = ok (f x) :=
  map_eq_ok_iff.mpr ⟨x, h, rfl⟩

theorem seq_ok {f : Reading (α → β)} {g : α → β} {a : Reading α} {x : α} (hf : f = ok g)
    (ha : a = ok x) : f <*> a = ok (g x) :=
  seq_eq_ok_iff.mpr ⟨g, hf, x, ha, rfl⟩

end Reading

/-! ## What is written is read back -/

section Written

variable {decode : Json → Except Fault α} {write : β → Json} {f : β → α}

theorem read_list {bs : List β} (h : ∀ b ∈ bs, decode (write b) = .ok (f b)) :
    asList decode (array (bs.map write)) = .ok (bs.map f) := by
  rw [asList, mapM_eq_ok_iff, List.forall₂_map_left_iff, List.forall₂_map_right_iff,
    List.forall₂_same]
  exact h

theorem read_names (names : List String) :
    asList asString (array (names.map string)) = .ok names := by
  have hread : asList asString (array (names.map string)) = .ok (names.map id) :=
    read_list fun _ _ ↦ rfl
  rwa [List.map_id] at hread

/-- What is written for something that is there must not be `null`. -/
theorem read_option {o : Option β} (h : ∀ b ∈ o, decode (write b) = .ok (f b))
    (hnull : ∀ b, write b ≠ null) :
    asOption decode ((o.map write).getD null) = .ok (o.map f) := by
  cases o with
  | none => rfl
  | some b =>
    have hb := h b rfl
    rw [Option.map_some, Option.getD_some, Option.map_some]
    unfold asOption
    split
    · rename_i heq
      exact absurd heq (hnull b)
    · rw [hb]
      rfl

variable {read : Members → Reading α} {tooLong : Fault} {keys : List String} {members : Members}
  {key : String} {j : Json} {a : α}

theorem read_record (hkeys : repeated? keys [] 0 members = none) (h : read members = .ok a) :
    asRecord tooLong keys read (object members) = .ok a := by
  rw [asRecord, hkeys, Reading.toExcept_eq_ok_iff, Reading.seqRight_eq_ok_iff]
  exact ⟨rfl, h⟩

theorem read_fieldOr {missing : Reading α} (hkey : members.lookup key = some j)
    (h : decode j = .ok a) : fieldOr decode missing key members = .ok a := by
  rw [fieldOr, hkey]
  exact mapError_eq_ok_iff.mpr h

end Written

/-! ## What is known of what was read -/

/-- Whether a reader gives only what has a property. -/
def Yields (decode : Json → Except Fault α) (P : α → Prop) : Prop :=
  ∀ ⦃j a⦄, decode j = .ok a → P a

namespace Yields

variable {decode : Json → Except Fault α} {P : α → Prop}

theorem asList (h : Yields decode P) : Yields (asList decode) fun as ↦ ∀ a ∈ as, P a := by
  intro j as hread
  cases j with
  | array items =>
    intro a ha
    obtain ⟨i, hi, rfl⟩ := List.getElem_of_mem ha
    have hitems := mapM_eq_ok_iff.mp hread
    have hlt : i < items.length := hitems.length_eq ▸ hi
    exact h (hitems.get hlt hi)
  | _ => exact absurd hread (by simp [Json.asList])

theorem asOption (h : Yields decode P) : Yields (asOption decode) fun o ↦ ∀ a ∈ o, P a := by
  intro j o hread
  unfold Json.asOption at hread
  split at hread
  · obtain rfl := Except.ok.inj hread
    exact fun a ha ↦ absurd ha (Option.not_mem_none a)
  · obtain ⟨a, ha, rfl⟩ := except_map_eq_ok_iff.mp hread
    rintro _ ⟨⟩
    exact h ha

theorem asRecord {tooLong : Fault} {keys : List String} {read : Members → Reading α}
    (h : ∀ members a, read members = .ok a → P a) : Yields (asRecord tooLong keys read) P := by
  intro j a hread
  cases j with
  | array items =>
    rw [Json.asRecord, Reading.toExcept_eq_ok_iff, Reading.seqRight_eq_ok_iff] at hread
    exact h _ _ hread.2
  | object members =>
    rw [Json.asRecord, Reading.toExcept_eq_ok_iff, Reading.seqRight_eq_ok_iff] at hread
    exact h _ _ hread.2
  | _ => exact absurd hread (by simp [Json.asRecord])

variable {key : String} {members : Members} {a : α}

theorem field (h : Yields decode P) (hread : field decode key members = .ok a) : P a := by
  rw [Json.field, fieldOr] at hread
  split at hread
  · exact h (mapError_eq_ok_iff.mp hread)
  · exact absurd hread (by simp [Reading.fault, Reading.ok])

theorem fieldD {default : α} (h : Yields decode P) (hdefault : P default)
    (hread : fieldD decode default key members = .ok a) : P a := by
  rw [Json.fieldD, fieldOr] at hread
  split at hread
  · exact h (mapError_eq_ok_iff.mp hread)
  · exact Except.ok.inj hread ▸ hdefault

end Yields

end Json

end Tabletop
