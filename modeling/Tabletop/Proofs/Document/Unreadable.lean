import Tabletop.Proofs.Document.Json
import Tabletop.Proofs.Json.Record

/-!
# Documents that cannot be read back

A number that is not finite is written as `null`, and wherever a document has a number, `null` is
refused. So a text that was written for a document can be read only if the numbers of the document
are finite (`Document.isFinite_of_ofText_print`).

The argument goes the way of the reader: if a record that was written is read, then so is each of
its fields.
-/

namespace Tabletop

open Json

/-! ## The parts of what was read -/

namespace Json

variable {α β : Type} {decode : Json → Except Fault α} {key : String}
  {members : Members} {j : Json} {a : α}

theorem of_fieldOr {missing : Reading α} (hkey : members.lookup key = some j)
    (h : fieldOr decode missing key members = .ok a) : decode j = .ok a := by
  rw [fieldOr, hkey] at h
  exact mapError_eq_ok_iff.mp h

theorem of_record {tooLong : Fault} {keys : List String} {read : Members → Reading α}
    (h : asRecord tooLong keys read (object members) = .ok a) : read members = .ok a :=
  (asRecord_object_eq_ok_iff.mp h).2

theorem of_list {write : β → Json} {bs : List β} {as : List α}
    (h : asList decode (array (bs.map write)) = .ok as) :
    ∀ b ∈ bs, ∃ a, decode (write b) = .ok a := by
  rw [asList, mapM_eq_ok_iff, List.forall₂_map_left_iff] at h
  intro b hb
  obtain ⟨i, hi, rfl⟩ := List.getElem_of_mem hb
  exact ⟨_, h.get hi (h.length_eq ▸ hi)⟩

theorem of_option {o : Option β} {o' : Option α} (write : β → Json) (hnull : ∀ b, write b ≠ null)
    (h : asOption decode ((o.map write).getD null) = .ok o') :
    ∀ b ∈ o, ∃ a, decode (write b) = .ok a := by
  rintro b rfl
  rw [Option.map_some, Option.getD_some] at h
  unfold asOption at h
  split at h
  · rename_i heq
    exact absurd heq (hnull b)
  · obtain ⟨a, ha, -⟩ := except_map_eq_ok_iff.mp h
    exact ⟨a, ha⟩

end Json

/-! ## Numbers and values -/

theorem Number.toJson_eq_null {x : Number} (h : ¬x.isFinite = true) : x.toJson = .null := by
  rw [toJson, toInt?]
  simp [h]

theorem Number.isFinite_of_asNumber {x y : Number} (h : x.toJson.asNumber = .ok y) :
    x.isFinite = true := by
  by_contra hinfinite
  rw [toJson_eq_null hinfinite] at h
  exact absurd h (by simp [asNumber, number?])

theorem Value.isFinite_of_asLiteral {v v' : Value} (h : v.toJson.asLiteral = .ok v') :
    ∀ x ∈ v.numbers, x.isFinite = true := by
  cases v with
  | boolean b | text s => exact List.forall_mem_nil _
  | number x =>
    refine List.forall_mem_singleton.mpr ?_
    by_contra hinfinite
    rw [toJson, Number.toJson_eq_null hinfinite] at h
    exact absurd h (by simp [asLiteral, asNumber, need, Except.map, Json.number?])

/-! ## Records -/

namespace Document

variable {x : Number}

theorem FlatRow.isFinite_of_ofJson {r r' : FlatRow} (h : ofJson r.toJson = .ok r') :
    ∀ x ∈ r.numbers, x.isFinite = true := by
  obtain ⟨_, -, magnitude, hmagnitude, -⟩ := Reading.seq_eq_ok_iff.mp (of_record h)
  exact List.forall_mem_singleton.mpr (Number.isFinite_of_asNumber (of_fieldOr rfl hmagnitude))

theorem DrawRow.isFinite_of_ofJson {r r' : DrawRow} (h : ofJson r.toJson = .ok r') :
    ∀ x ∈ r.numbers, x.isFinite = true := by
  obtain ⟨_, h₁, flat, hflat, -⟩ := Reading.seq_eq_ok_iff.mp (of_record h)
  obtain ⟨_, -, operand, hoperand, -⟩ := Reading.seq_eq_ok_iff.mp h₁
  refine List.forall_mem_cons.mpr ⟨Number.isFinite_of_asNumber (of_fieldOr rfl hoperand), ?_⟩
  refine List.forall_mem_flatMap.mpr fun f hf ↦ ?_
  obtain ⟨f', hf'⟩ := of_option FlatRow.toJson (fun _ ↦ nofun) (of_fieldOr rfl hflat) f
    (Option.mem_toList.mp hf)
  exact FlatRow.isFinite_of_ofJson hf'

theorem AmountRow.isFinite_of_ofJson {r r' : AmountRow} (h : ofJson r.toJson = .ok r') :
    ∀ x ∈ r.numbers, x.isFinite = true := by
  obtain ⟨-, h⟩ := check_bind_eq_ok_iff.mp h
  cases r with
  | drawn r =>
    rw [toJson] at h
    cases hr : DrawRow.ofJson r.toJson with
    | ok row => exact DrawRow.isFinite_of_ofJson hr
    | error fault =>
      -- a record is no literal either
      rw [hr] at h
      obtain ⟨value, hvalue, -⟩ := bind_eq_ok_iff.mp h
      exact absurd hvalue (by simp [DrawRow.toJson, asLiteral, asNumber, number?, need, Except.map])
  | literal value =>
    rw [toJson, DrawRow.ofJson, Value.asRecord_toJson] at h
    obtain ⟨value', hvalue, -⟩ := bind_eq_ok_iff.mp h
    exact Value.isFinite_of_asLiteral hvalue

theorem ConditionRow.isFinite_of_ofJson {r r' : ConditionRow} (h : ofJson r.toJson = .ok r') :
    ∀ x ∈ r.numbers, x.isFinite = true := by
  obtain ⟨_, -, value, hvalue, -⟩ := Reading.seq_eq_ok_iff.mp (of_record h)
  exact Value.isFinite_of_asLiteral (check_bind_eq_ok_iff.mp (of_fieldOr rfl hvalue)).2

theorem EffectRow.isFinite_of_ofJson {r r' : EffectRow} (h : ofJson r.toJson = .ok r') :
    ∀ x ∈ r.numbers, x.isFinite = true := by
  obtain ⟨_, h₁, condition, hcondition, -⟩ := Reading.seq_eq_ok_iff.mp (of_record h)
  obtain ⟨_, -, amount, hamount, -⟩ := Reading.seq_eq_ok_iff.mp h₁
  refine List.forall_mem_append.mpr ⟨AmountRow.isFinite_of_ofJson (of_fieldOr rfl hamount), ?_⟩
  refine List.forall_mem_flatMap.mpr fun c hc ↦ ?_
  obtain ⟨c', hc'⟩ :=
    of_option ConditionRow.toJson (fun _ ↦ nofun) (of_fieldOr rfl hcondition) c
      (Option.mem_toList.mp hc)
  exact ConditionRow.isFinite_of_ofJson hc'

theorem ActionRow.isFinite_of_ofJson {r r' : ActionRow} (h : ofJson r.toJson = .ok r') :
    ∀ x ∈ r.numbers, x.isFinite = true := by
  obtain ⟨_, -, effects, heffects, -⟩ := Reading.seq_eq_ok_iff.mp (of_record h)
  refine List.forall_mem_flatMap.mpr fun f hf ↦ ?_
  obtain ⟨f', hf'⟩ := of_list (of_fieldOr rfl heffects) f hf
  exact EffectRow.isFinite_of_ofJson hf'

theorem SlotRow.isFinite_of_ofJson {r r' : SlotRow} (h : ofJson r.toJson = .ok r') :
    ∀ x ∈ r.numbers, x.isFinite = true := by
  obtain ⟨_, -, value, hvalue, -⟩ := Reading.seq_eq_ok_iff.mp (of_record h)
  exact Value.isFinite_of_asLiteral (check_bind_eq_ok_iff.mp (of_fieldOr rfl hvalue)).2

theorem EntityRow.isFinite_of_ofJson {r r' : EntityRow} (h : ofJson r.toJson = .ok r') :
    ∀ x ∈ r.numbers, x.isFinite = true := by
  obtain ⟨_, h₁, actions, -, -⟩ := Reading.seq_eq_ok_iff.mp (of_record h)
  obtain ⟨_, -, slots, hslots, -⟩ := Reading.seq_eq_ok_iff.mp h₁
  refine List.forall_mem_flatMap.mpr fun s hs ↦ ?_
  obtain ⟨s', hs'⟩ := of_list (of_fieldOr rfl hslots) s hs
  exact SlotRow.isFinite_of_ofJson hs'

theorem EndingRow.isFinite_of_ofJson {r r' : EndingRow} (h : ofJson r.toJson = .ok r') :
    ∀ x ∈ r.numbers, x.isFinite = true := by
  cases r with
  | turnCount comparator count => exact List.forall_mem_nil _
  | participant name attr comparator value =>
    obtain ⟨-, h⟩ := check_bind_eq_ok_iff.mp h
    cases hr : participantOfJson (EndingRow.participant name attr comparator value).toJson with
    | ok row =>
      obtain ⟨_, -, value', hvalue, -⟩ := Reading.seq_eq_ok_iff.mp (of_record hr)
      exact Value.isFinite_of_asLiteral (of_fieldOr rfl hvalue)
    | error fault =>
      -- a count of turns has no such keys
      rw [hr] at h
      obtain ⟨hkeys, -⟩ := check_bind_eq_ok_iff.mp h
      exact absurd (require_eq_ok_iff.mp hkeys) (by simp)

theorem EventRow.isFinite_of_ofJson {r r' : EventRow} (h : ofJson r.toJson = .ok r') :
    ∀ x ∈ r.numbers, x.isFinite = true := by
  obtain ⟨_, -, ending, hending, -⟩ := Reading.seq_eq_ok_iff.mp (of_record h)
  exact EndingRow.isFinite_of_ofJson (of_fieldOr rfl hending)

theorem isFinite_of_ofJson {d d' : Document} (h : ofJson d.toJson = .ok d') :
    ∀ x ∈ d.numbers, x.isFinite = true := by
  obtain ⟨_, h₁, events, hevents, -⟩ := Reading.seq_eq_ok_iff.mp (of_record h)
  obtain ⟨_, h₂, entities, hentities, -⟩ := Reading.seq_eq_ok_iff.mp h₁
  obtain ⟨_, -, actions, hactions, -⟩ := Reading.seq_eq_ok_iff.mp h₂
  refine List.forall_mem_append.mpr ⟨List.forall_mem_append.mpr ⟨?_, ?_⟩, ?_⟩
  · refine List.forall_mem_flatMap.mpr fun r hr ↦ ?_
    obtain ⟨r', hr'⟩ := of_list (of_fieldOr rfl hactions) r hr
    exact ActionRow.isFinite_of_ofJson hr'
  · refine List.forall_mem_flatMap.mpr fun r hr ↦ ?_
    obtain ⟨r', hr'⟩ := of_list (of_fieldOr rfl hentities) r hr
    exact EntityRow.isFinite_of_ofJson hr'
  · obtain ⟨name, attributes, actions, entities, events⟩ := d
    cases events with
    | nil => exact List.forall_mem_nil _
    | cons event rows =>
      refine List.forall_mem_flatMap.mpr fun r hr ↦ ?_
      obtain ⟨r', hr'⟩ := of_list (of_fieldOr rfl hevents) r hr
      exact EventRow.isFinite_of_ofJson hr'

/-- **Only finite numbers are read back.** If the text of a document can be read, the numbers of the
document are finite. -/
theorem isFinite_of_ofText_print {d d' : Document} (h : ofText d.print = .ok d') :
    ∀ x ∈ d.numbers, x.isFinite = true := by
  rw [ofText, print, ofText?_pretty d.legible_toJson] at h
  exact isFinite_of_ofJson h

end Document

end Tabletop
