import Tabletop.Document.Json
import Tabletop.Proofs.Document.Numbers
import Tabletop.Proofs.Json.Decode
import Tabletop.Proofs.Json.Tree

/-!
# Documents as texts

What is written for a document is read back, number by number: if every number of the document is
read back from its tree, so is the document (`Document.ofText_print`), except that a negative zero
comes back as zero. And what is read, from whatever text, has finite numbers only.

## Numbers that are read back

A whole number below nine times ten to the fifteenth is written as an integer and always read back,
up to the sign of zero. Every other number is written with a point or an exponent, and reading is by
scaling, which may miss it by a rounding. That it does not is `Number.ReadsBack`.
-/

namespace Tabletop

open Json

/-! ## Numbers -/

namespace Number

/-- Whether a number, if it is written with a point or an exponent, is read back from there. -/
def ReadsBack (x : Number) : Prop := x.toJson = .real x.document → x.document.scaled? = some x

/-- Whether a number is read back from its tree, up to the sign of zero. -/
def IsKept (x : Number) : Prop := x.toJson.number? = some x.plain

theorem toInt?_of_magnitudeBits {x : Number} (h : x.magnitudeBits = 0) : x.toInt? = some 0 := by
  have hfinite : x.isFinite = true := by
    rw [isFinite, h]
    decide
  rw [toInt?, hfinite, h]
  cases x.isNegative <;> rfl

theorem toJson_of_magnitudeBits {x : Number} (h : x.magnitudeBits = 0) : x.toJson = .integer 0 := by
  rw [toJson, toInt?_of_magnitudeBits h]
  exact if_pos (by decide)

theorem toJson_plain (x : Number) : x.plain.toJson = x.toJson := by
  rw [plain]
  split
  · rename_i hzero
    rw [toJson_of_magnitudeBits hzero,
      toJson_of_magnitudeBits (magnitudeBits_ofMagnitudeBits (by decide))]
  · rfl

/-- The bound below which whole numbers are written as integers has sixty-four bits. -/
theorem lt_size_of_lt {n : Nat} (h : n < 9 * tenTo 15) : n < UInt64.size := h.trans (by decide)

/-- Whole numbers are read back from their integers. -/
theorem number?_integer {x : Number} {i : Int} (h : x.toInt? = some i)
    (hi : i.natAbs < UInt64.size) : (Json.integer i).number? = some x.plain :=
  (Numeral.scaled?_ofInt hi).trans (congrArg some (ofInt_of_toInt? h))

/-- **Every finite number is read back**, if the fractions are. -/
theorem ReadsBack.isKept {x : Number} (hfinite : x.isFinite = true) (h : x.ReadsBack) :
    x.IsKept := by
  by_cases hzero : x.magnitudeBits = 0
  · rw [IsKept, toJson_of_magnitudeBits hzero]
    exact number?_integer (toInt?_of_magnitudeBits hzero) (by decide)
  have hplain : x.plain = x := if_neg hzero
  -- fractions, and whole numbers that are too large for the bound
  have hreal : x.toJson = .real x.document → x.IsKept := fun hwritten ↦ by
    rw [IsKept, hwritten, hplain]
    exact h hwritten
  cases hi : x.toInt? with
  | none =>
    refine hreal ?_
    rw [toJson, hi]
    exact if_pos hfinite
  | some i =>
    by_cases hlt : i.natAbs < 9 * tenTo 15
    · have hwritten : x.toJson = .integer i := by
        rw [toJson, hi]
        exact if_pos hlt
      rw [IsKept, hwritten]
      exact number?_integer hi (lt_size_of_lt hlt)
    · refine hreal ?_
      rw [toJson, hi]
      exact if_neg hlt

theorem legible_toJson {room : Nat} (x : Number) : Legible room x.toJson := by
  rw [toJson]
  split
  · split
    · rename_i hlt
      exact .integer (lt_size_of_lt hlt)
    · exact .real x.proper_document
  · split
    · exact .real x.proper_document
    · exact .null

end Number

theorem Json.isSound_of_number? {j : Json} {x : Number} (h : j.number? = some x) :
    j.isSound = true := by
  cases j with
  | integer i | real n =>
    rw [isSound, h]
    rfl
  | _ => exact absurd h (by simp [number?])

theorem Json.asNumber_of_number? {j : Json} {x : Number} (h : j.number? = some x) :
    j.asNumber = .ok x := need_eq_ok_iff.mpr h

theorem Json.asLiteral_of_number? {j : Json} {x : Number} (h : j.number? = some x) :
    j.asLiteral = .ok (.number x) := by
  cases j with
  | integer i | real n =>
    rw [asLiteral, asNumber_of_number? h]
    · rfl
    all_goals exact fun _ hj ↦ nomatch hj
  | _ => exact absurd h (by simp [number?])

/-- A literal is no record. -/
theorem Value.asRecord_toJson {α : Type} {tooLong : Fault} {keys : List String}
    {read : Members → Reading α} (v : Value) :
    v.toJson.asRecord tooLong keys read = .error v.toJson.unwanted := by
  cases v with
  | boolean b | text s => rfl
  | number x =>
    rw [toJson, Number.toJson]
    split
    · split <;> rfl
    · split <;> rfl

/-! ## The trees of documents -/

section Legible

variable {room : Nat}

theorem Value.legible_toJson (v : Value) : Legible room v.toJson := by
  cases v with
  | boolean b => exact .boolean b
  | number x => exact x.legible_toJson
  | text s => exact .string s

theorem Json.legible_list {α : Type} {write : α → Json} {as : List α}
    (h : ∀ a, Legible room (write a)) : Legible (room + 1) (.array (as.map write)) :=
  .array (List.forall_mem_map.mpr fun a _ ↦ h a)

theorem Json.legible_option {α : Type} {write : α → Json} {o : Option α}
    (h : ∀ a, Legible room (write a)) : Legible room ((o.map write).getD .null) := by
  cases o with
  | none => exact .null
  | some a => exact h a

theorem Json.legible_ofNames (names : List String) : Legible (room + 1) (.ofNames names) :=
  legible_list .string

theorem Turn.legible_toJson (t : Turn) : Legible (room + 2) t.toJson := by
  cases t with
  | act user action targets =>
    refine .object ?_
    simp only [List.forall_mem_cons]
    exact ⟨.string _, .string _, .string _, legible_ofNames _, List.forall_mem_nil _⟩
  | say speaker text =>
    refine .object ?_
    simp only [List.forall_mem_cons]
    exact ⟨.string _, .string _, .string _, List.forall_mem_nil _⟩

namespace Document

theorem AttributeRow.legible_toJson (r : AttributeRow) : Legible (room + 1) r.toJson := by
  refine .object ?_
  simp only [List.forall_mem_cons]
  exact ⟨.string _, .string _, List.forall_mem_nil _⟩

theorem FlatRow.legible_toJson (r : FlatRow) : Legible (room + 1) r.toJson := by
  refine .object ?_
  simp only [List.forall_mem_cons]
  exact ⟨.string _, r.magnitude.legible_toJson, List.forall_mem_nil _⟩

theorem DrawRow.legible_toJson (r : DrawRow) : Legible (room + 2) r.toJson := by
  refine .object ?_
  simp only [List.forall_mem_cons]
  exact ⟨.string _, .string _, .string _, r.operand.legible_toJson,
    legible_option FlatRow.legible_toJson, List.forall_mem_nil _⟩

theorem AmountRow.legible_toJson (r : AmountRow) : Legible (room + 2) r.toJson := by
  cases r with
  | drawn r => exact r.legible_toJson
  | literal value => exact value.legible_toJson

theorem ConditionRow.legible_toJson (r : ConditionRow) : Legible (room + 1) r.toJson := by
  refine .object ?_
  simp only [List.forall_mem_cons]
  exact ⟨.string _, .string _, .string _, r.value.legible_toJson, List.forall_mem_nil _⟩

theorem EffectRow.legible_toJson (r : EffectRow) : Legible (room + 3) r.toJson := by
  refine .object ?_
  simp only [List.forall_mem_cons]
  exact ⟨.string _, .string _, .string _, r.amount.legible_toJson,
    legible_option ConditionRow.legible_toJson, List.forall_mem_nil _⟩

theorem ActionRow.legible_toJson (r : ActionRow) : Legible (room + 5) r.toJson := by
  refine .object ?_
  simp only [List.forall_mem_cons]
  exact ⟨.string _, legible_list EffectRow.legible_toJson, List.forall_mem_nil _⟩

theorem SlotRow.legible_toJson (r : SlotRow) : Legible (room + 1) r.toJson := by
  refine .object ?_
  simp only [List.forall_mem_cons]
  exact ⟨.string _, .string _, r.value.legible_toJson, List.forall_mem_nil _⟩

theorem EntityRow.legible_toJson (r : EntityRow) : Legible (room + 3) r.toJson := by
  refine .object ?_
  simp only [List.forall_mem_cons]
  exact ⟨.string _, legible_list SlotRow.legible_toJson, legible_ofNames _, List.forall_mem_nil _⟩

theorem EndingRow.legible_toJson (r : EndingRow) : Legible (room + 1) r.toJson := by
  cases r with
  | participant name attr comparator value =>
    refine .object ?_
    simp only [List.forall_mem_cons]
    exact ⟨.string _, .string _, .string _, value.legible_toJson, List.forall_mem_nil _⟩
  | turnCount comparator count =>
    refine .object ?_
    simp only [List.forall_mem_cons]
    exact ⟨.string _, .integer (count.toNat_lt.trans (by decide)), List.forall_mem_nil _⟩

theorem EventRow.legible_toJson (r : EventRow) : Legible (room + 4) r.toJson := by
  refine .object ?_
  simp only [List.forall_mem_cons]
  exact ⟨.string _, legible_ofNames _, legible_list Turn.legible_toJson,
    r.ending.legible_toJson, List.forall_mem_nil _⟩

/-- **Documents can be written.** They are not nested deeply. -/
theorem legible_toJson (d : Document) : Legible maxDepth d.toJson := by
  -- eight levels of containers, of which the reader allows many more
  change Legible (119 + 8) d.toJson
  refine .object ?_
  simp only [List.forall_mem_append, List.forall_mem_cons]
  refine ⟨⟨.string _, legible_list AttributeRow.legible_toJson,
    legible_list ActionRow.legible_toJson, legible_list EntityRow.legible_toJson,
    List.forall_mem_nil _⟩, ?_⟩
  split
  · exact List.forall_mem_nil _
  · exact List.forall_mem_singleton.mpr (legible_list EventRow.legible_toJson)

end Document

end Legible

/-! ## The sign of zero is not written -/

section Plain

theorem Value.toJson_plain (v : Value) : (v.mapNumbers Number.plain).toJson = v.toJson := by
  cases v with
  | number x => exact x.toJson_plain
  | boolean b | text s => rfl

namespace Document

theorem FlatRow.toJson_plain (r : FlatRow) : (r.mapNumbers Number.plain).toJson = r.toJson := by
  simp only [toJson, mapNumbers, Number.toJson_plain]

theorem DrawRow.toJson_plain (r : DrawRow) : (r.mapNumbers Number.plain).toJson = r.toJson := by
  simp only [toJson, mapNumbers, Number.toJson_plain, Option.map_map, Function.comp_def,
    FlatRow.toJson_plain]

theorem AmountRow.toJson_plain (r : AmountRow) :
    (r.mapNumbers Number.plain).toJson = r.toJson := by
  cases r with
  | drawn r => exact r.toJson_plain
  | literal value => exact value.toJson_plain

theorem ConditionRow.toJson_plain (r : ConditionRow) :
    (r.mapNumbers Number.plain).toJson = r.toJson := by
  simp only [toJson, mapNumbers, Value.toJson_plain]

theorem EffectRow.toJson_plain (r : EffectRow) :
    (r.mapNumbers Number.plain).toJson = r.toJson := by
  simp only [toJson, mapNumbers, AmountRow.toJson_plain, Option.map_map, Function.comp_def,
    ConditionRow.toJson_plain]

theorem ActionRow.toJson_plain (r : ActionRow) :
    (r.mapNumbers Number.plain).toJson = r.toJson := by
  simp only [toJson, mapNumbers, List.map_map, Function.comp_def, EffectRow.toJson_plain]

theorem SlotRow.toJson_plain (r : SlotRow) : (r.mapNumbers Number.plain).toJson = r.toJson := by
  simp only [toJson, mapNumbers, Value.toJson_plain]

theorem EntityRow.toJson_plain (r : EntityRow) :
    (r.mapNumbers Number.plain).toJson = r.toJson := by
  simp only [toJson, mapNumbers, List.map_map, Function.comp_def, SlotRow.toJson_plain]

theorem EndingRow.toJson_plain (r : EndingRow) :
    (r.mapNumbers Number.plain).toJson = r.toJson := by
  cases r with
  | participant name attr comparator value =>
    simp only [toJson, mapNumbers, Value.toJson_plain]
  | turnCount comparator count => rfl

theorem EventRow.toJson_plain (r : EventRow) : (r.mapNumbers Number.plain).toJson = r.toJson := by
  simp only [toJson, mapNumbers, EndingRow.toJson_plain]

/-- **A negative zero is written like zero.** -/
theorem print_plain (d : Document) : (d.mapNumbers Number.plain).print = d.print := by
  simp only [print, toJson, mapNumbers, List.map_map, Function.comp_def, ActionRow.toJson_plain,
    EntityRow.toJson_plain, EventRow.toJson_plain, List.isEmpty_map]

end Document

end Plain

/-! ## What is written is read back -/

section Read

theorem Value.read_toJson {v : Value} (h : ∀ x ∈ v.numbers, x.IsKept) :
    v.toJson.asLiteral = .ok (v.mapNumbers Number.plain) := by
  cases v with
  | boolean b | text s => rfl
  | number x => exact asLiteral_of_number? (h x List.mem_cons_self)

theorem Value.isSound_toJson {v : Value} (h : ∀ x ∈ v.numbers, x.IsKept) :
    v.toJson.isSound = true := by
  cases v with
  | boolean b | text s => rfl
  | number x => exact isSound_of_number? (h x List.mem_cons_self)

theorem Value.asValue_toJson {v : Value} (h : ∀ x ∈ v.numbers, x.IsKept) :
    v.toJson.asValue = .ok (v.mapNumbers Number.plain) := by
  rw [asValue, ensureSound, isSound_toJson h]
  exact read_toJson h

theorem Json.isSound_ofNames (names : List String) : (Json.ofNames names).isSound = true := by
  rw [ofNames, isSound]
  induction names with
  | nil => rfl
  | cons name names ih => exact ih

theorem Json.asCount_toNat (count : UInt32) : asCount (.integer count.toNat) = .ok count := by
  have hcount : count.toNat < UInt32.size := count.toNat_lt
  rw [asCount, check_bind_eq_ok_iff, require_eq_ok_iff, Int.toNat_natCast, UInt32.ofNat_toNat]
  refine ⟨?_, rfl⟩
  rw [Bool.and_eq_true, decide_eq_true_eq, decide_eq_true_eq]
  omega

theorem Turn.read_toJson (t : Turn) : t.toJson.asTurn = .ok t := by
  cases t with
  | act user action targets =>
    have hsound : ensureSoundTurn [("turn", .string "action"), ("user", .string user),
        ("action", .string action), ("targets", .ofNames targets)] = .ok () := by
      have hall : [("turn", Json.string "action"), ("user", .string user),
          ("action", .string action), ("targets", .ofNames targets)].findIdx?
            (fun m ↦ m.1 != "turn" && !m.2.isSound) = none := by
        rw [List.findIdx?_eq_none_iff]
        simp [isSound, isSound_ofNames]
      rw [ensureSoundTurn, hall]
    refine bind_eq_ok_iff.mpr ⟨_, Reading.toExcept_eq_ok_iff.mpr
      (Reading.seqRight_eq_ok_iff.mpr ⟨Reading.seqRight_eq_ok_iff.mpr ⟨rfl, hsound⟩, rfl⟩), ?_⟩
    exact read_record rfl <| Reading.seq_ok (Reading.seq_ok (Reading.map_ok rfl)
      (read_fieldOr rfl rfl)) (read_fieldOr rfl (read_names _))
  | say speaker text => rfl

namespace Document

theorem AttributeRow.read_toJson (r : AttributeRow) : ofJson r.toJson = .ok r := rfl

theorem FlatRow.read_toJson {r : FlatRow} (h : ∀ x ∈ r.numbers, x.IsKept) :
    ofJson r.toJson = .ok (r.mapNumbers Number.plain) :=
  read_record rfl <| Reading.seq_ok (Reading.map_ok rfl) <|
    read_fieldOr rfl (asNumber_of_number? (h _ List.mem_cons_self))

theorem DrawRow.read_toJson {r : DrawRow} (h : ∀ x ∈ r.numbers, x.IsKept) :
    ofJson r.toJson = .ok (r.mapNumbers Number.plain) := by
  obtain ⟨hoperand, hflat⟩ := List.forall_mem_cons.mp h
  rw [List.forall_mem_flatMap] at hflat
  refine read_record rfl <| Reading.seq_ok (Reading.seq_ok (Reading.seq_ok (Reading.seq_ok
    (Reading.map_ok rfl) (read_fieldOr rfl rfl)) (read_fieldOr rfl rfl))
    (read_fieldOr rfl (asNumber_of_number? hoperand))) (read_fieldOr rfl ?_)
  exact read_option (fun r hr ↦ FlatRow.read_toJson (hflat r (Option.mem_toList.mpr hr)))
    fun _ ↦ nofun

theorem DrawRow.isSound_toJson {r : DrawRow} (h : ∀ x ∈ r.numbers, x.IsKept) :
    r.toJson.isSound = true := by
  obtain ⟨hoperand, hflat⟩ := List.forall_mem_cons.mp h
  rw [List.forall_mem_flatMap] at hflat
  have hoption : ((r.flat.map FlatRow.toJson).getD .null).isSound = true := by
    cases hr : r.flat with
    | none => rfl
    | some flat =>
      have hmagnitude := hflat flat (Option.mem_toList.mpr hr) _ List.mem_cons_self
      simp only [Option.map_some, Option.getD_some, FlatRow.toJson, isSound, areSoundMembers,
        isSound_of_number? hmagnitude, Bool.and_self]
  simp only [toJson, isSound, areSoundMembers, isSound_of_number? hoperand, hoption, Bool.and_self]

theorem AmountRow.read_toJson {r : AmountRow} (h : ∀ x ∈ r.numbers, x.IsKept) :
    ofJson r.toJson = .ok (r.mapNumbers Number.plain) := by
  cases r with
  | drawn r =>
    rw [toJson, ofJson, ensureSound, DrawRow.isSound_toJson h, DrawRow.read_toJson h]
    rfl
  | literal value =>
    -- a literal is no record, so it is not taken for a draw
    rw [toJson, ofJson, ensureSound, Value.isSound_toJson h, DrawRow.ofJson,
      Value.asRecord_toJson, Value.read_toJson h]
    rfl

theorem ConditionRow.read_toJson {r : ConditionRow} (h : ∀ x ∈ r.numbers, x.IsKept) :
    ofJson r.toJson = .ok (r.mapNumbers Number.plain) :=
  read_record rfl <| Reading.seq_ok (Reading.seq_ok (Reading.seq_ok (Reading.map_ok rfl)
    (read_fieldOr rfl rfl)) (read_fieldOr rfl rfl)) (read_fieldOr rfl (Value.asValue_toJson h))

theorem EffectRow.read_toJson {r : EffectRow} (h : ∀ x ∈ r.numbers, x.IsKept) :
    ofJson r.toJson = .ok (r.mapNumbers Number.plain) := by
  obtain ⟨hamount, hcondition⟩ := List.forall_mem_append.mp h
  rw [List.forall_mem_flatMap] at hcondition
  refine read_record rfl <| Reading.seq_ok (Reading.seq_ok (Reading.seq_ok (Reading.seq_ok
    (Reading.map_ok rfl) (read_fieldOr rfl rfl)) (read_fieldOr rfl rfl))
    (read_fieldOr rfl (AmountRow.read_toJson hamount))) (read_fieldOr rfl ?_)
  exact read_option
    (fun r hr ↦ ConditionRow.read_toJson (hcondition r (Option.mem_toList.mpr hr))) fun _ ↦ nofun

theorem ActionRow.read_toJson {r : ActionRow} (h : ∀ x ∈ r.numbers, x.IsKept) :
    ofJson r.toJson = .ok (r.mapNumbers Number.plain) :=
  read_record rfl <| Reading.seq_ok (Reading.map_ok rfl) <|
    read_fieldOr rfl (read_list fun r hr ↦
      EffectRow.read_toJson (List.forall_mem_flatMap.mp h r hr))

theorem SlotRow.read_toJson {r : SlotRow} (h : ∀ x ∈ r.numbers, x.IsKept) :
    ofJson r.toJson = .ok (r.mapNumbers Number.plain) :=
  read_record rfl <| Reading.seq_ok (Reading.seq_ok (Reading.map_ok rfl) (read_fieldOr rfl rfl)) <|
    read_fieldOr rfl (Value.asValue_toJson h)

theorem EntityRow.read_toJson {r : EntityRow} (h : ∀ x ∈ r.numbers, x.IsKept) :
    ofJson r.toJson = .ok (r.mapNumbers Number.plain) :=
  read_record rfl <| Reading.seq_ok (Reading.seq_ok (Reading.map_ok rfl)
    (read_fieldOr rfl (read_list fun r hr ↦
      SlotRow.read_toJson (List.forall_mem_flatMap.mp h r hr))))
    (read_fieldOr rfl (read_names _))

/-- A count of turns names no participant, so it is not read in the first form. -/
theorem EndingRow.participantOfJson_turnCount {comparator : String} {count : UInt32}
    {r : EndingRow} : participantOfJson (toJson (.turnCount comparator count)) ≠ .ok r := by
  intro hr
  obtain ⟨-, hr⟩ := Reading.seqRight_eq_ok_iff.mp (Reading.toExcept_eq_ok_iff.mp hr)
  obtain ⟨_, hr, -⟩ := Reading.seq_eq_ok_iff.mp hr
  obtain ⟨_, hr, -⟩ := Reading.seq_eq_ok_iff.mp hr
  obtain ⟨_, hr, -⟩ := Reading.seq_eq_ok_iff.mp hr
  obtain ⟨_, hr, -⟩ := Reading.map_eq_ok_iff.mp hr
  cases hr

theorem EndingRow.read_toJson {r : EndingRow} (h : ∀ x ∈ r.numbers, x.IsKept) :
    ofJson r.toJson = .ok (r.mapNumbers Number.plain) := by
  cases r with
  | participant name attr comparator value =>
    have hsound : (toJson (.participant name attr comparator value)).isSound = true := by
      simp only [toJson, isSound, areSoundMembers, Value.isSound_toJson h, Bool.and_self]
    have hread : participantOfJson (toJson (.participant name attr comparator value)) =
        .ok (.participant name attr comparator (value.mapNumbers Number.plain)) :=
      read_record rfl <| Reading.seq_ok (Reading.seq_ok (Reading.seq_ok (Reading.map_ok rfl)
        (read_fieldOr rfl rfl)) (read_fieldOr rfl rfl)) (read_fieldOr rfl (Value.read_toJson h))
    rw [ofJson, ensureSound, hsound, hread]
    rfl
  | turnCount comparator count =>
    have hcount : (Json.integer count.toNat).isSound = true :=
      isSound_of_number? (Numeral.scaled?_ofInt (count.toNat_lt.trans (by decide)))
    have hsound : (toJson (.turnCount comparator count)).isSound = true := by
      simp only [toJson, isSound.eq_def (.object _), areSoundMembers, hcount]
      rfl
    have hread : turnCountOfJson (toJson (.turnCount comparator count)) =
        .ok (.turnCount comparator count) :=
      check_bind_eq_ok_iff.mpr ⟨rfl, read_record rfl <| Reading.seq_ok (Reading.map_ok rfl)
        (read_fieldOr rfl (asCount_toNat count))⟩
    rw [ofJson, ensureSound, hsound]
    cases hr : participantOfJson (toJson (.turnCount comparator count)) with
    | ok r => exact absurd hr participantOfJson_turnCount
    | error e => exact check_bind_eq_ok_iff.mpr ⟨rfl, hread⟩

theorem EventRow.read_toJson {r : EventRow} (h : ∀ x ∈ r.numbers, x.IsKept) :
    ofJson r.toJson = .ok (r.mapNumbers Number.plain) := by
  have hscript : asList asTurn (.array (r.script.map Turn.toJson)) = .ok (r.script.map id) :=
    read_list fun t _ ↦ t.read_toJson
  rw [List.map_id] at hscript
  exact read_record rfl <| Reading.seq_ok (Reading.seq_ok (Reading.seq_ok (Reading.map_ok rfl)
    (read_fieldOr rfl (read_names _))) (read_fieldOr rfl hscript))
    (read_fieldOr rfl (EndingRow.read_toJson h))

theorem read_toJson {d : Document} (h : ∀ x ∈ d.numbers, x.IsKept) :
    ofJson d.toJson = .ok (d.mapNumbers Number.plain) := by
  obtain ⟨hrows, hevents⟩ := List.forall_mem_append.mp h
  obtain ⟨hactions, hentities⟩ := List.forall_mem_append.mp hrows
  rw [List.forall_mem_flatMap] at hactions hentities hevents
  have hattributes : asList AttributeRow.ofJson (.array (d.attributes.map AttributeRow.toJson)) =
      .ok (d.attributes.map id) := read_list fun r _ ↦ r.read_toJson
  rw [List.map_id] at hattributes
  have hactions' := read_list fun r hr ↦ ActionRow.read_toJson (hactions r hr)
  have hentities' := read_list fun r hr ↦ EntityRow.read_toJson (hentities r hr)
  have hevents' := read_list fun r hr ↦ EventRow.read_toJson (hevents r hr)
  obtain ⟨name, attributes, actions, entities, events⟩ := d
  cases events with
  | nil =>
    -- no events are not written, and what is not there is read as none
    exact read_record rfl <| Reading.seq_ok (Reading.seq_ok (Reading.seq_ok (Reading.seq_ok
      (Reading.map_ok rfl) (read_fieldOr rfl hattributes)) (read_fieldOr rfl hactions'))
      (read_fieldOr rfl hentities')) rfl
  | cons r rows =>
    exact read_record rfl <| Reading.seq_ok (Reading.seq_ok (Reading.seq_ok (Reading.seq_ok
      (Reading.map_ok rfl) (read_fieldOr rfl hattributes)) (read_fieldOr rfl hactions'))
      (read_fieldOr rfl hentities')) (read_fieldOr rfl hevents')

/-- **Documents are read back from their texts.** -/
theorem ofText_print {d : Document} (h : ∀ x ∈ d.numbers, x.IsKept) :
    ofText d.print = .ok (d.mapNumbers Number.plain) := by
  rw [ofText, print, ofText?_pretty d.legible_toJson]
  exact read_toJson h

end Document

end Read

/-! ## What is read is finite -/

section Finite

theorem Json.yields_asNumber : Yields asNumber fun x ↦ x.isFinite = true := by
  intro j x h
  cases j with
  | integer i | real n => exact Numeral.isFinite_of_scaled? (need_eq_ok_iff.mp h)
  | _ => exact absurd (need_eq_ok_iff.mp h) (by simp [number?])

theorem Json.yields_asLiteral : Yields asLiteral fun v ↦ ∀ x ∈ v.numbers, x.isFinite = true := by
  intro j v h
  unfold asLiteral at h
  split at h
  · obtain rfl := Except.ok.inj h
    exact List.forall_mem_nil _
  · obtain rfl := Except.ok.inj h
    exact List.forall_mem_nil _
  · obtain ⟨x, hx, rfl⟩ := except_map_eq_ok_iff.mp h
    exact List.forall_mem_singleton.mpr (yields_asNumber hx)

theorem Json.yields_asValue : Yields asValue fun v ↦ ∀ x ∈ v.numbers, x.isFinite = true :=
  fun _ _ h ↦ yields_asLiteral (check_bind_eq_ok_iff.mp h).2

namespace Document

theorem FlatRow.yields : Yields ofJson fun r ↦ ∀ x ∈ r.numbers, x.isFinite = true := by
  refine .asRecord fun members r h ↦ ?_
  obtain ⟨_, h₁, magnitude, hmagnitude, rfl⟩ := Reading.seq_eq_ok_iff.mp h
  obtain ⟨sign, -, rfl⟩ := Reading.map_eq_ok_iff.mp h₁
  exact List.forall_mem_singleton.mpr (yields_asNumber.field hmagnitude)

theorem DrawRow.yields : Yields ofJson fun r ↦ ∀ x ∈ r.numbers, x.isFinite = true := by
  refine .asRecord fun members r h ↦ ?_
  obtain ⟨_, h₄, flat, hflat, rfl⟩ := Reading.seq_eq_ok_iff.mp h
  obtain ⟨_, h₃, operand, hoperand, rfl⟩ := Reading.seq_eq_ok_iff.mp h₄
  obtain ⟨_, h₂, combine, -, rfl⟩ := Reading.seq_eq_ok_iff.mp h₃
  obtain ⟨_, h₁, owner, -, rfl⟩ := Reading.seq_eq_ok_iff.mp h₂
  obtain ⟨source, -, rfl⟩ := Reading.map_eq_ok_iff.mp h₁
  have hfinite := FlatRow.yields.asOption.fieldD
    (fun r hr ↦ absurd hr (Option.not_mem_none r)) hflat
  refine List.forall_mem_cons.mpr ⟨yields_asNumber.field hoperand, ?_⟩
  exact List.forall_mem_flatMap.mpr fun r hr ↦ hfinite r (Option.mem_toList.mp hr)

theorem AmountRow.yields : Yields ofJson fun r ↦ ∀ x ∈ r.numbers, x.isFinite = true := by
  intro j r h
  obtain ⟨-, h⟩ := check_bind_eq_ok_iff.mp h
  split at h
  · rename_i row hrow
    obtain rfl := Except.ok.inj h
    exact DrawRow.yields hrow
  · obtain ⟨value, hvalue, h⟩ := bind_eq_ok_iff.mp h
    obtain rfl := Except.ok.inj h
    exact yields_asLiteral hvalue

theorem ConditionRow.yields : Yields ofJson fun r ↦ ∀ x ∈ r.numbers, x.isFinite = true := by
  refine .asRecord fun members r h ↦ ?_
  obtain ⟨_, h₃, value, hvalue, rfl⟩ := Reading.seq_eq_ok_iff.mp h
  obtain ⟨_, h₂, comparator, -, rfl⟩ := Reading.seq_eq_ok_iff.mp h₃
  obtain ⟨_, h₁, owner, -, rfl⟩ := Reading.seq_eq_ok_iff.mp h₂
  obtain ⟨attr, -, rfl⟩ := Reading.map_eq_ok_iff.mp h₁
  exact yields_asValue.field hvalue

theorem EffectRow.yields : Yields ofJson fun r ↦ ∀ x ∈ r.numbers, x.isFinite = true := by
  refine .asRecord fun members r h ↦ ?_
  obtain ⟨_, h₄, condition, hcondition, rfl⟩ := Reading.seq_eq_ok_iff.mp h
  obtain ⟨_, h₃, amount, hamount, rfl⟩ := Reading.seq_eq_ok_iff.mp h₄
  obtain ⟨_, h₂, modifier, -, rfl⟩ := Reading.seq_eq_ok_iff.mp h₃
  obtain ⟨_, h₁, scope, -, rfl⟩ := Reading.seq_eq_ok_iff.mp h₂
  obtain ⟨attr, -, rfl⟩ := Reading.map_eq_ok_iff.mp h₁
  have hfinite := ConditionRow.yields.asOption.fieldD
    (fun r hr ↦ absurd hr (Option.not_mem_none r)) hcondition
  refine List.forall_mem_append.mpr ⟨AmountRow.yields.field hamount, ?_⟩
  exact List.forall_mem_flatMap.mpr fun r hr ↦ hfinite r (Option.mem_toList.mp hr)

theorem ActionRow.yields : Yields ofJson fun r ↦ ∀ x ∈ r.numbers, x.isFinite = true := by
  refine .asRecord fun members r h ↦ ?_
  obtain ⟨_, h₁, effects, heffects, rfl⟩ := Reading.seq_eq_ok_iff.mp h
  obtain ⟨name, -, rfl⟩ := Reading.map_eq_ok_iff.mp h₁
  exact List.forall_mem_flatMap.mpr (EffectRow.yields.asList.field heffects)

theorem SlotRow.yields : Yields ofJson fun r ↦ ∀ x ∈ r.numbers, x.isFinite = true := by
  refine .asRecord fun members r h ↦ ?_
  obtain ⟨_, h₂, value, hvalue, rfl⟩ := Reading.seq_eq_ok_iff.mp h
  obtain ⟨_, h₁, kind, -, rfl⟩ := Reading.seq_eq_ok_iff.mp h₂
  obtain ⟨attr, -, rfl⟩ := Reading.map_eq_ok_iff.mp h₁
  exact yields_asValue.field hvalue

theorem EntityRow.yields : Yields ofJson fun r ↦ ∀ x ∈ r.numbers, x.isFinite = true := by
  refine .asRecord fun members r h ↦ ?_
  obtain ⟨_, h₂, actions, -, rfl⟩ := Reading.seq_eq_ok_iff.mp h
  obtain ⟨_, h₁, slots, hslots, rfl⟩ := Reading.seq_eq_ok_iff.mp h₂
  obtain ⟨name, -, rfl⟩ := Reading.map_eq_ok_iff.mp h₁
  exact List.forall_mem_flatMap.mpr (SlotRow.yields.asList.fieldD (List.forall_mem_nil _) hslots)

theorem EndingRow.yields_participant :
    Yields participantOfJson fun r ↦ ∀ x ∈ r.numbers, x.isFinite = true := by
  refine .asRecord fun members r h ↦ ?_
  obtain ⟨_, h₃, value, hvalue, rfl⟩ := Reading.seq_eq_ok_iff.mp h
  obtain ⟨_, h₂, comparator, -, rfl⟩ := Reading.seq_eq_ok_iff.mp h₃
  obtain ⟨_, h₁, attr, -, rfl⟩ := Reading.seq_eq_ok_iff.mp h₂
  obtain ⟨name, -, rfl⟩ := Reading.map_eq_ok_iff.mp h₁
  exact yields_asLiteral.field hvalue

theorem EndingRow.yields_turnCount :
    Yields turnCountOfJson fun r ↦ ∀ x ∈ r.numbers, x.isFinite = true := by
  -- the two ways to write a count of turns are read as one record
  have hrecord : Yields (asRecord .misshapen ["comparison", "value"] fun r ↦
      EndingRow.turnCount <$> field asString "comparison" r <*> field asCount "value" r)
      fun r ↦ ∀ x ∈ r.numbers, x.isFinite = true := by
    refine .asRecord fun members r h ↦ ?_
    obtain ⟨_, h₁, count, -, rfl⟩ := Reading.seq_eq_ok_iff.mp h
    obtain ⟨comparator, -, rfl⟩ := Reading.map_eq_ok_iff.mp h₁
    exact List.forall_mem_nil _
  intro j r h
  unfold turnCountOfJson at h
  split at h
  · obtain ⟨-, h⟩ := check_bind_eq_ok_iff.mp h
    exact hrecord h
  · exact hrecord h

theorem EndingRow.yields : Yields ofJson fun r ↦ ∀ x ∈ r.numbers, x.isFinite = true := by
  intro j r h
  obtain ⟨-, h⟩ := check_bind_eq_ok_iff.mp h
  split at h
  · rename_i row hrow
    obtain rfl := Except.ok.inj h
    exact yields_participant hrow
  · exact yields_turnCount h

theorem EventRow.yields : Yields ofJson fun r ↦ ∀ x ∈ r.numbers, x.isFinite = true := by
  refine .asRecord fun members r h ↦ ?_
  obtain ⟨_, h₃, ending, hending, rfl⟩ := Reading.seq_eq_ok_iff.mp h
  obtain ⟨_, h₂, script, -, rfl⟩ := Reading.seq_eq_ok_iff.mp h₃
  obtain ⟨_, h₁, participants, -, rfl⟩ := Reading.seq_eq_ok_iff.mp h₂
  obtain ⟨name, -, rfl⟩ := Reading.map_eq_ok_iff.mp h₁
  exact EndingRow.yields.field hending

theorem yields : Yields ofJson fun d ↦ ∀ x ∈ d.numbers, x.isFinite = true := by
  refine .asRecord fun members r h ↦ ?_
  obtain ⟨_, h₄, events, hevents, rfl⟩ := Reading.seq_eq_ok_iff.mp h
  obtain ⟨_, h₃, entities, hentities, rfl⟩ := Reading.seq_eq_ok_iff.mp h₄
  obtain ⟨_, h₂, actions, hactions, rfl⟩ := Reading.seq_eq_ok_iff.mp h₃
  obtain ⟨_, h₁, attributes, -, rfl⟩ := Reading.seq_eq_ok_iff.mp h₂
  obtain ⟨name, -, rfl⟩ := Reading.map_eq_ok_iff.mp h₁
  refine List.forall_mem_append.mpr ⟨List.forall_mem_append.mpr ⟨?_, ?_⟩, ?_⟩
  · exact List.forall_mem_flatMap.mpr
      (ActionRow.yields.asList.fieldD (List.forall_mem_nil _) hactions)
  · exact List.forall_mem_flatMap.mpr
      (EntityRow.yields.asList.fieldD (List.forall_mem_nil _) hentities)
  · exact List.forall_mem_flatMap.mpr
      (EventRow.yields.asList.fieldD (List.forall_mem_nil _) hevents)

/-- **The numbers of a document are finite**, whatever text it was read from. -/
theorem isFinite_of_ofText {t : String} {d : Document} (h : ofText t = .ok d) :
    ∀ x ∈ d.numbers, x.isFinite = true := by
  obtain ⟨j, -, hj⟩ := bind_eq_ok_iff.mp h
  exact yields hj

end Document

end Finite

end Tabletop
