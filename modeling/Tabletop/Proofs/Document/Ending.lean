import Tabletop.Proofs.Document.Json
import Tabletop.Proofs.Json.Record

/-!
# The grammar of end conditions

An end condition is read in two attempts, of which the second is made whenever the first fails. That
the two do not mix is not a matter of their order alone: an object that names a participant and has
something else wrong with it must not pass as a count of turns. It does not, because a count of
turns has two members and no others (`IsTurnCount`), while the participant form asks for four and
does not mind more (`IsParticipant`). So every object is read by one grammar or by none
(`EndingRow.ofJson_object`).

There is one condition on the object as a whole. All of it is looked at before either attempt, and a
number that is too large is a fault wherever it stands, even under a key that is ignored.
-/

namespace Tabletop

namespace Json

/-- The value that a number, a string or a truth value stands for. -/
inductive StandsFor : Json → Value → Prop
  | boolean (b : Bool) : StandsFor (boolean b) (.boolean b)
  | string (s : String) : StandsFor (string s) (.text s)
  | number {j : Json} {x : Number} (h : j.number? = some x) : StandsFor j (.number x)

variable {j : Json} {s : String} {v : Value} {count : UInt32}

theorem asString_eq_ok_iff : j.asString = .ok s ↔ j = .string s := by
  cases j <;> simp [asString]

theorem asLiteral_eq_ok_iff : j.asLiteral = .ok v ↔ StandsFor j v := by
  constructor
  · intro h
    unfold asLiteral at h
    split at h
    · obtain rfl := Except.ok.inj h
      exact .boolean _
    · obtain rfl := Except.ok.inj h
      exact .string _
    · obtain ⟨x, hx, rfl⟩ := except_map_eq_ok_iff.mp h
      exact .number (need_eq_ok_iff.mp hx)
  · rintro (b | s | h)
    · rfl
    · rfl
    · exact asLiteral_of_number? h

theorem asCount_eq_ok_iff : j.asCount = .ok count ↔ j = .integer count.toNat := by
  constructor
  · intro h
    cases j with
    | integer i =>
      obtain ⟨hi, h⟩ := check_bind_eq_ok_iff.mp h
      simp only [require_eq_ok_iff, Bool.and_eq_true, decide_eq_true_eq] at hi
      obtain ⟨n, rfl⟩ := Int.eq_ofNat_of_zero_le hi.1
      have hn : n < UInt32.size := by omega
      obtain rfl := pure_eq_ok_iff.mp h
      rw [Int.toNat_natCast, UInt32.toNat_ofNat_of_lt' hn]
    | _ => exact absurd h (by simp [asCount])
  · rintro rfl
    exact asCount_toNat count

end Json

namespace Document

open Json

variable {members : Members} {r : EndingRow}

/-- Whether the members of an object say a condition on a participant, perhaps among others. -/
structure IsParticipant (members : Members) (name attr comparator : String) (value : Value) :
    Prop where
  participant_mem : ("participant", .string name) ∈ members
  attribute_mem : ("attribute", .string attr) ∈ members
  comparison_mem : ("comparison", .string comparator) ∈ members
  value_mem : ∃ j, ("value", j) ∈ members ∧ StandsFor j value

/-- Whether the members of an object are those of a count of turns, in any order. -/
def IsTurnCount (members : Members) (comparator : String) (count : UInt32) : Prop :=
  members.Perm [("comparison", .string comparator), ("value", .integer count.toNat)]

theorem IsTurnCount.isSound {comparator : String} {count : UInt32}
    (h : IsTurnCount members comparator count) : (object members).isSound = true := by
  have hcount : (Json.integer count.toNat).isSound = true :=
    isSound_of_number? (Numeral.scaled?_ofInt (count.toNat_lt.trans (by decide)))
  rw [Json.isSound, areSoundMembers_iff]
  intro m hm
  obtain rfl | hm := List.mem_cons.mp (h.mem_iff.mp hm)
  · rfl
  · obtain rfl := List.mem_singleton.mp hm
    exact hcount

/-- What names a participant is no count of turns. -/
theorem IsTurnCount.not_isParticipant {comparator : String} {count : UInt32}
    (h : IsTurnCount members comparator count) {name attr comparator' : String} {value : Value} :
    ¬IsParticipant members name attr comparator' value := fun hparticipant ↦ by
  have hmem := h.mem_iff.mp hparticipant.participant_mem
  simp at hmem

/-- The two attempts. -/
theorem EndingRow.ofJson_eq_ok_iff_attempts {j : Json} :
    EndingRow.ofJson j = .ok r ↔ j.isSound = true ∧
      (EndingRow.participantOfJson j = .ok r ∨
        (¬∃ r', EndingRow.participantOfJson j = .ok r') ∧ EndingRow.turnCountOfJson j = .ok r) := by
  rw [EndingRow.ofJson, check_bind_eq_ok_iff, ensureSound, require_eq_ok_iff]
  refine and_congr_right fun _ ↦ ?_
  cases EndingRow.participantOfJson j with
  | ok r' => simp [pure_eq_ok_iff]
  | error fault => simp

section

variable (hkeys : (members.map Prod.fst).Nodup)

include hkeys

theorem participantOfJson_eq_ok_iff :
    EndingRow.participantOfJson (object members) = .ok r ↔
      ∃ name attr comparator value,
        IsParticipant members name attr comparator value ∧
          r = .participant name attr comparator value := by
  have honce : NoneTwice ["participant", "attribute", "comparison", "value"] members :=
    noneTwice_of_nodup hkeys
  rw [EndingRow.participantOfJson, asRecord_object_eq_ok_iff, and_iff_right honce]
  simp only [Reading.seq_eq_ok_iff, Reading.map_eq_ok_iff, field_eq_ok_iff, asString_eq_ok_iff,
    asLiteral_eq_ok_iff, exists_eq_right]
  constructor
  · rintro ⟨_, ⟨_, ⟨_, ⟨name, hname, rfl⟩, attr, hattr, rfl⟩, comparator, hcomparator, rfl⟩, value,
      ⟨j, hj, hvalue⟩, rfl⟩
    rw [lookup_eq_some_iff_mem honce (by decide)] at hname hattr hcomparator hj
    exact ⟨name, attr, comparator, value, ⟨hname, hattr, hcomparator, j, hj, hvalue⟩, rfl⟩
  · rintro ⟨name, attr, comparator, value, ⟨hname, hattr, hcomparator, j, hj, hvalue⟩, rfl⟩
    rw [← lookup_eq_some_iff_mem honce (by decide)] at hname hattr hcomparator hj
    exact ⟨_, ⟨_, ⟨_, ⟨name, hname, rfl⟩, attr, hattr, rfl⟩, comparator, hcomparator, rfl⟩, value,
      ⟨j, hj, hvalue⟩, rfl⟩

/-- Two members that are there, and no others, are all members. -/
theorem isTurnCount_iff {comparator : String} {count : UInt32} :
    IsTurnCount members comparator count ↔
      (∀ m ∈ members, m.1 ∈ ["comparison", "value"]) ∧
        ("comparison", .string comparator) ∈ members ∧
          ("value", .integer count.toNat) ∈ members := by
  constructor
  · intro h
    refine ⟨fun m hm ↦ ?_, h.mem_iff.mpr List.mem_cons_self, h.mem_iff.mpr (by simp)⟩
    exact List.forall_mem_map.mp (fun key hkey ↦ hkey) m (h.mem_iff.mp hm)
  · rintro ⟨hall, hcomparison, hvalue⟩
    have honce : NoneTwice ["comparison", "value"] members := noneTwice_of_nodup hkeys
    refine (List.perm_ext_iff_of_nodup hkeys.of_map (by simp)).mpr fun m ↦ ⟨fun hm ↦ ?_, ?_⟩
    · -- a key stands for one member only
      obtain ⟨key, j⟩ := m
      have hkey := hall _ hm
      rw [← lookup_eq_some_iff_mem honce (by simp)] at hcomparison hvalue
      rw [← lookup_eq_some_iff_mem honce hkey] at hm
      simp only [List.mem_cons, List.not_mem_nil, or_false] at hkey
      rcases hkey with rfl | rfl
      · rw [hcomparison] at hm
        exact Option.some.inj hm ▸ List.mem_cons_self
      · rw [hvalue] at hm
        exact Option.some.inj hm ▸ by simp
    · intro hm
      obtain rfl | hm := List.mem_cons.mp hm
      · exact hcomparison
      · exact List.mem_singleton.mp hm ▸ hvalue

theorem turnCountOfJson_eq_ok_iff :
    EndingRow.turnCountOfJson (object members) = .ok r ↔
      ∃ comparator count, IsTurnCount members comparator count ∧
        r = .turnCount comparator count := by
  have honce : NoneTwice ["comparison", "value"] members := noneTwice_of_nodup hkeys
  have hall : members.all (["comparison", "value"].contains ·.1) = true ↔
      ∀ m ∈ members, m.1 ∈ ["comparison", "value"] := by
    simp only [List.all_eq_true, List.contains_iff_mem]
  rw [EndingRow.turnCountOfJson]
  dsimp only
  rw [check_bind_eq_ok_iff, require_eq_ok_iff, hall, asRecord_object_eq_ok_iff,
    and_iff_right honce]
  simp only [Reading.seq_eq_ok_iff, Reading.map_eq_ok_iff, field_eq_ok_iff, asString_eq_ok_iff,
    asCount_eq_ok_iff, exists_eq_right, isTurnCount_iff hkeys]
  constructor
  · rintro ⟨hkeys, _, ⟨comparator, hcomparator, rfl⟩, count, hcount, rfl⟩
    rw [lookup_eq_some_iff_mem honce (by decide)] at hcomparator hcount
    exact ⟨comparator, count, ⟨hkeys, hcomparator, hcount⟩, rfl⟩
  · rintro ⟨comparator, count, ⟨hkeys, hcomparator, hcount⟩, rfl⟩
    rw [← lookup_eq_some_iff_mem honce (by decide)] at hcomparator hcount
    exact ⟨hkeys, _, ⟨comparator, hcomparator, rfl⟩, count, hcount, rfl⟩

/-- An end condition is read in one of the two forms. They exclude each other, so that the second is
read also where the first is tried before. -/
theorem EndingRow.ofJson_eq_ok_iff :
    EndingRow.ofJson (object members) = .ok r ↔
      ((object members).isSound = true ∧ ∃ name attr comparator value,
        IsParticipant members name attr comparator value ∧
          r = .participant name attr comparator value) ∨
      ∃ comparator count, IsTurnCount members comparator count ∧
        r = .turnCount comparator count := by
  rw [EndingRow.ofJson_eq_ok_iff_attempts]
  simp only [participantOfJson_eq_ok_iff hkeys, turnCountOfJson_eq_ok_iff hkeys]
  constructor
  · rintro ⟨hsound, h | ⟨-, h⟩⟩
    · exact .inl ⟨hsound, h⟩
    · exact .inr h
  · rintro (⟨hsound, h⟩ | ⟨comparator, count, h, hr⟩)
    · exact ⟨hsound, .inl h⟩
    · refine ⟨h.isSound, .inr ⟨?_, comparator, count, h, hr⟩⟩
      rintro ⟨_, _, _, _, _, hparticipant, -⟩
      exact h.not_isParticipant hparticipant

end

/-- **End conditions have one grammar.** An object without repeated keys is read as a condition on a
participant if it names one, with an attribute, a comparison and a value, and nothing in it is
flawed; what else it has is ignored. It is read as a count of turns if it has a comparison and a
count and nothing else. It is refused otherwise. -/
theorem EndingRow.reads_one_grammar (hkeys : (members.map Prod.fst).Nodup) :
    (∀ name attr comparator value,
        EndingRow.ofJson (object members) = .ok (.participant name attr comparator value) ↔
          (object members).isSound = true ∧ IsParticipant members name attr comparator value) ∧
      (∀ comparator count,
        EndingRow.ofJson (object members) = .ok (.turnCount comparator count) ↔
          IsTurnCount members comparator count) ∧
      ((∃ fault, EndingRow.ofJson (object members) = .error fault) ↔
        ¬((object members).isSound = true ∧
            ∃ name attr comparator value, IsParticipant members name attr comparator value) ∧
          ¬∃ comparator count, IsTurnCount members comparator count) := by
  have hparticipant : ∀ name attr comparator value,
      EndingRow.ofJson (object members) = .ok (.participant name attr comparator value) ↔
        (object members).isSound = true ∧ IsParticipant members name attr comparator value := by
    intro name attr comparator value
    rw [ofJson_eq_ok_iff hkeys]
    constructor
    · rintro (⟨hsound, name', attr', comparator', value', h, heq⟩ | ⟨_, _, -, heq⟩)
      · cases heq
        exact ⟨hsound, h⟩
      · cases heq
    · rintro ⟨hsound, h⟩
      exact .inl ⟨hsound, name, attr, comparator, value, h, rfl⟩
  have hturnCount : ∀ comparator count,
      EndingRow.ofJson (object members) = .ok (.turnCount comparator count) ↔
        IsTurnCount members comparator count := by
    intro comparator count
    rw [ofJson_eq_ok_iff hkeys]
    constructor
    · rintro (⟨-, _, _, _, _, -, heq⟩ | ⟨comparator', count', h, heq⟩)
      · cases heq
      · cases heq
        exact h
    · intro h
      exact .inr ⟨comparator, count, h, rfl⟩
  refine ⟨hparticipant, hturnCount, ?_⟩
  cases hread : EndingRow.ofJson (object members) with
  | ok r =>
    refine iff_of_false (fun ⟨_, h⟩ ↦ nomatch h) fun ⟨hno, hno'⟩ ↦ ?_
    cases r with
    | participant name attr comparator value =>
      obtain ⟨hsound, h⟩ := (hparticipant name attr comparator value).mp hread
      exact hno ⟨hsound, name, attr, comparator, value, h⟩
    | turnCount comparator count =>
      exact hno' ⟨comparator, count, (hturnCount comparator count).mp hread⟩
  | error fault =>
    refine iff_of_true ⟨fault, rfl⟩ ⟨?_, ?_⟩
    · rintro ⟨hsound, name, attr, comparator, value, h⟩
      exact nomatch hread.symm.trans ((hparticipant name attr comparator value).mpr ⟨hsound, h⟩)
    · rintro ⟨comparator, count, h⟩
      exact nomatch hread.symm.trans ((hturnCount comparator count).mpr h)

/-- A vigil until Keith has three points at most, with a remark that is ignored. -/
def vigil : Members :=
  [("remark", .array [.null]), ("value", .integer 3), ("comparison", .string "<="),
    ("attribute", .string "HP"), ("participant", .string "Keith")]

theorem EndingRow.reads_one_grammar_vigil :
    (vigil.map Prod.fst).Nodup ∧
      EndingRow.ofJson (object vigil) =
        .ok (.participant "Keith" "HP" "<=" (.number (Number.ofInt 3))) ∧
      ∃ fault, EndingRow.ofJson (object vigil.dropLast) = .error fault := by
  have hkeys : (vigil.map Prod.fst).Nodup := by decide
  have hkeys' : (vigil.dropLast.map Prod.fst).Nodup := by decide
  have hthree : (Json.integer 3).number? = some (Number.ofInt 3) := by decide +kernel
  have hvigil : IsParticipant vigil "Keith" "HP" "<=" (.number (Number.ofInt 3)) := by
    refine ⟨?_, ?_, ?_, .integer 3, ?_, .number hthree⟩ <;> simp [vigil]
  have hsound : (object vigil).isSound = true := by decide +kernel
  refine ⟨hkeys, ((reads_one_grammar hkeys).1 _ _ _ _).mpr ⟨hsound, hvigil⟩, ?_⟩
  -- a condition without its participant is no count of turns
  refine (reads_one_grammar hkeys').2.2.mpr ⟨?_, ?_⟩
  · rintro ⟨-, _, _, _, _, h⟩
    have hmem := h.participant_mem
    simp [vigil] at hmem
  · rintro ⟨_, _, h⟩
    exact absurd h.length_eq (by simp [vigil])

/-- A vigil with a remark that is a number beyond all numbers. -/
def endlessVigil : Members :=
  [("participant", .string "Keith"), ("attribute", .string "HP"), ("comparison", .string "<="),
    ("value", .string "low"), ("remark", .real ⟨false, ['1'], [], 999⟩)]

/-- The remark stands under a key that is ignored, and the condition is refused all the same. -/
theorem EndingRow.ofJson_endlessVigil :
    Json.ofText? ("\x7b\"participant\": \"Keith\", \"attribute\": \"HP\", " ++
        "\"comparison\": \"<=\", \"value\": \"low\", \"remark\": 1e999\x7d") =
        some (object endlessVigil) ∧
      (endlessVigil.map Prod.fst).Nodup ∧
      IsParticipant endlessVigil "Keith" "HP" "<=" (.text "low") ∧
      EndingRow.ofJson (object endlessVigil) = .error .malformed := by
  refine ⟨by cbv, by decide, ?_, by rfl⟩
  refine ⟨?_, ?_, ?_, .string "low", ?_, .string "low"⟩ <;> simp [endlessVigil]

end Document

end Tabletop
