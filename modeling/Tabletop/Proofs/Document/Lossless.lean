import Tabletop.Proofs.Document.Json

/-!
# Nothing is lost in a text

A document of finite numbers that is written as a text is read back as the same document
(`Document.lossless`), if only the fractions are. Documents are compared as their readers do it,
number by number as doubles; the one thing that a text does not keep is the sign of a zero.

Two parts of a document have two forms each, and nothing in the text says which of them was meant.
An amount is tried as a record first, and no literal is a record, while no record is a literal. An
end condition is tried as one on a participant first: a count of turns lacks the participant, and a
condition on a participant has keys that a count of turns refuses. So a form is never taken for the
other one, whatever the numbers are.
-/

namespace Tabletop

open Json

/-! ## Documents as their readers compare them -/

section Compare

open Float.Model in
theorem compare_self_of_isNaN {u : UnpackedFloat} (h : u.isNaN = false) :
    u.compare u = some .eq := by
  cases u with
  | notANumber => exact absurd h (by simp [UnpackedFloat.isNaN])
  | zero s => rfl
  | infinity s => cases s <;> rfl
  | finite s m e hm =>
    cases s <;> simp [UnpackedFloat.compare]

namespace Number

variable {x : Number}

theorem beq_self_of_isFinite (h : x.isFinite = true) : (x == x) = true := by
  have hcompare : x.toModel.unpack.compare x.toModel.unpack = some .eq :=
    compare_self_of_isNaN (isFinite_iff.mp h).1
  change (x.toModel.unpack.compare x.toModel.unpack == some .eq) = true
  rw [hcompare, beq_self_eq_true]

/-- The sign of a zero makes no difference. -/
theorem plain_beq (h : x.isFinite = true) : (x.plain == x) = true := by
  rw [plain]
  split
  · rename_i hzero
    rw [← ofMagnitudeBits_magnitudeBits h, hzero]
    cases x.isNegative <;> decide +kernel
  · exact beq_self_of_isFinite h

end Number

theorem beq_map {α : Type} [BEq α] {g : α → α} {as : List α} (h : ∀ a ∈ as, (g a == a) = true) :
    (as.map g == as) = true := by
  induction as with
  | nil => rfl
  | cons a as ih =>
    obtain ⟨ha, has⟩ := List.forall_mem_cons.mp h
    rw [List.map_cons, List.cons_beq_cons, ha, ih has, Bool.and_self]

theorem beq_option_map {α : Type} [BEq α] {g : α → α} {o : Option α}
    (h : ∀ a ∈ o.toList, (g a == a) = true) : (o.map g == o) = true := by
  cases o with
  | none => rfl
  | some a => exact h a List.mem_cons_self

variable {f : Number → Number}

theorem Value.beq_mapNumbers {v : Value} (h : ∀ x ∈ v.numbers, (f x == x) = true) :
    (v.mapNumbers f == v) = true := by
  cases v with
  | boolean b => exact beq_self_eq_true b
  | text s => exact beq_self_eq_true s
  | number x => exact h x List.mem_cons_self

namespace Document

instance : ReflBEq AttributeRow where
  rfl {r} := Bool.and_eq_true_iff.mpr ⟨beq_self_eq_true r.name, beq_self_eq_true r.kind⟩

theorem FlatRow.beq_mapNumbers {r : FlatRow} (h : ∀ x ∈ r.numbers, (f x == x) = true) :
    (r.mapNumbers f == r) = true := by
  change (r.sign == r.sign && f r.magnitude == r.magnitude) = true
  rw [beq_self_eq_true, h _ List.mem_cons_self, Bool.and_self]

theorem DrawRow.beq_mapNumbers {r : DrawRow} (h : ∀ x ∈ r.numbers, (f x == x) = true) :
    (r.mapNumbers f == r) = true := by
  obtain ⟨hoperand, hflat⟩ := List.forall_mem_cons.mp h
  rw [List.forall_mem_flatMap] at hflat
  have hflat' : (r.flat.map (·.mapNumbers f) == r.flat) = true :=
    beq_option_map fun flat hr ↦ FlatRow.beq_mapNumbers (hflat flat hr)
  change (r.source == r.source && (r.owner == r.owner && (r.combine == r.combine &&
    (f r.operand == r.operand && r.flat.map (·.mapNumbers f) == r.flat)))) = true
  simp only [beq_self_eq_true, hoperand, hflat', Bool.and_self]

theorem AmountRow.beq_mapNumbers {r : AmountRow} (h : ∀ x ∈ r.numbers, (f x == x) = true) :
    (r.mapNumbers f == r) = true := by
  cases r with
  | drawn r => exact DrawRow.beq_mapNumbers h
  | literal value => exact Value.beq_mapNumbers h

theorem ConditionRow.beq_mapNumbers {r : ConditionRow} (h : ∀ x ∈ r.numbers, (f x == x) = true) :
    (r.mapNumbers f == r) = true := by
  have hvalue : (r.value.mapNumbers f == r.value) = true := Value.beq_mapNumbers h
  change (r.attr == r.attr && (r.owner == r.owner && (r.comparator == r.comparator &&
    r.value.mapNumbers f == r.value))) = true
  simp only [beq_self_eq_true, hvalue, Bool.and_self]

theorem EffectRow.beq_mapNumbers {r : EffectRow} (h : ∀ x ∈ r.numbers, (f x == x) = true) :
    (r.mapNumbers f == r) = true := by
  obtain ⟨hamount, hcondition⟩ := List.forall_mem_append.mp h
  rw [List.forall_mem_flatMap] at hcondition
  have hamount' : (r.amount.mapNumbers f == r.amount) = true := AmountRow.beq_mapNumbers hamount
  have hcondition' : (r.condition.map (·.mapNumbers f) == r.condition) = true :=
    beq_option_map fun c hc ↦ ConditionRow.beq_mapNumbers (hcondition c hc)
  change (r.attr == r.attr && (r.scope == r.scope && (r.modifier == r.modifier &&
    (r.amount.mapNumbers f == r.amount && r.condition.map (·.mapNumbers f) == r.condition)))) =
      true
  simp only [beq_self_eq_true, hamount', hcondition', Bool.and_self]

theorem ActionRow.beq_mapNumbers {r : ActionRow} (h : ∀ x ∈ r.numbers, (f x == x) = true) :
    (r.mapNumbers f == r) = true := by
  have heffects : (r.effects.map (·.mapNumbers f) == r.effects) = true :=
    beq_map fun e he ↦ EffectRow.beq_mapNumbers (List.forall_mem_flatMap.mp h e he)
  change (r.name == r.name && r.effects.map (·.mapNumbers f) == r.effects) = true
  simp only [beq_self_eq_true, heffects, Bool.and_self]

theorem SlotRow.beq_mapNumbers {r : SlotRow} (h : ∀ x ∈ r.numbers, (f x == x) = true) :
    (r.mapNumbers f == r) = true := by
  have hvalue : (r.value.mapNumbers f == r.value) = true := Value.beq_mapNumbers h
  change (r.attr == r.attr && (r.kind == r.kind && r.value.mapNumbers f == r.value)) = true
  simp only [beq_self_eq_true, hvalue, Bool.and_self]

theorem EntityRow.beq_mapNumbers {r : EntityRow} (h : ∀ x ∈ r.numbers, (f x == x) = true) :
    (r.mapNumbers f == r) = true := by
  have hslots : (r.slots.map (·.mapNumbers f) == r.slots) = true :=
    beq_map fun s hs ↦ SlotRow.beq_mapNumbers (List.forall_mem_flatMap.mp h s hs)
  change (r.name == r.name && (r.slots.map (·.mapNumbers f) == r.slots &&
    r.actions == r.actions)) = true
  simp only [beq_self_eq_true, hslots, Bool.and_self]

theorem EndingRow.beq_mapNumbers {r : EndingRow} (h : ∀ x ∈ r.numbers, (f x == x) = true) :
    (r.mapNumbers f == r) = true := by
  cases r with
  | participant name attr comparator value =>
    have hvalue : (value.mapNumbers f == value) = true := Value.beq_mapNumbers h
    change (name == name && (attr == attr && (comparator == comparator &&
      value.mapNumbers f == value))) = true
    simp only [beq_self_eq_true, hvalue, Bool.and_self]
  | turnCount comparator count =>
    exact Bool.and_eq_true_iff.mpr ⟨beq_self_eq_true comparator, beq_self_eq_true count⟩

theorem EventRow.beq_mapNumbers {r : EventRow} (h : ∀ x ∈ r.numbers, (f x == x) = true) :
    (r.mapNumbers f == r) = true := by
  have hending : (r.ending.mapNumbers f == r.ending) = true := EndingRow.beq_mapNumbers h
  change (r.name == r.name && (r.participants == r.participants && (r.script == r.script &&
    r.ending.mapNumbers f == r.ending))) = true
  simp only [beq_self_eq_true, hending, Bool.and_self]

/-- **A change of numbers that no comparison notices** is not noticed in a document. -/
theorem beq_mapNumbers {d : Document} (h : ∀ x ∈ d.numbers, (f x == x) = true) :
    (d.mapNumbers f == d) = true := by
  obtain ⟨hrows, hevents⟩ := List.forall_mem_append.mp h
  obtain ⟨hactions, hentities⟩ := List.forall_mem_append.mp hrows
  rw [List.forall_mem_flatMap] at hactions hentities hevents
  have hactions' : (d.actions.map (·.mapNumbers f) == d.actions) = true :=
    beq_map fun r hr ↦ ActionRow.beq_mapNumbers (hactions r hr)
  have hentities' : (d.entities.map (·.mapNumbers f) == d.entities) = true :=
    beq_map fun r hr ↦ EntityRow.beq_mapNumbers (hentities r hr)
  have hevents' : (d.events.map (·.mapNumbers f) == d.events) = true :=
    beq_map fun r hr ↦ EventRow.beq_mapNumbers (hevents r hr)
  change (d.name == d.name && (d.attributes == d.attributes &&
    (d.actions.map (·.mapNumbers f) == d.actions &&
      (d.entities.map (·.mapNumbers f) == d.entities &&
        d.events.map (·.mapNumbers f) == d.events)))) = true
  simp only [beq_self_eq_true, hactions', hentities', hevents', Bool.and_self]

end Document

end Compare

/-! ## Forms -/

/-- The keys of a tree, if it is an object. -/
def Json.keys : Json → List String
  | object members => members.map Prod.fst
  | _ => []

namespace Document

/-- Whether an amount is drawn from an attribute. -/
def AmountRow.isDrawn : AmountRow → Bool
  | .drawn _ => true
  | .literal _ => false

/-- Whether an end condition is on the number of turns. -/
def EndingRow.isTurnCount : EndingRow → Bool
  | .participant _ _ _ _ => false
  | .turnCount _ _ => true

/-- **Amounts keep their form.** -/
theorem AmountRow.isDrawn_of_read {r r' : AmountRow} (h : ofJson r.toJson = .ok r') :
    r'.isDrawn = r.isDrawn := by
  obtain ⟨-, h⟩ := check_bind_eq_ok_iff.mp h
  cases r with
  | drawn r =>
    split at h
    · obtain rfl := Except.ok.inj h
      rfl
    · -- an object is no literal
      obtain ⟨_, hliteral, -⟩ := bind_eq_ok_iff.mp h
      cases hliteral
  | literal value =>
    rw [toJson, DrawRow.ofJson, Value.asRecord_toJson] at h
    obtain ⟨value', -, h⟩ := bind_eq_ok_iff.mp h
    obtain rfl := Except.ok.inj h
    rfl

theorem EndingRow.yields_isTurnCount_participant :
    Yields participantOfJson fun r ↦ r.isTurnCount = false := by
  refine .asRecord fun members r h ↦ ?_
  obtain ⟨_, h₃, value, -, rfl⟩ := Reading.seq_eq_ok_iff.mp h
  obtain ⟨_, h₂, comparator, -, rfl⟩ := Reading.seq_eq_ok_iff.mp h₃
  obtain ⟨_, h₁, attr, -, rfl⟩ := Reading.seq_eq_ok_iff.mp h₂
  obtain ⟨name, -, rfl⟩ := Reading.map_eq_ok_iff.mp h₁
  rfl

/-- **End conditions keep their form.** -/
theorem EndingRow.isTurnCount_of_read {r r' : EndingRow} (h : ofJson r.toJson = .ok r') :
    r'.isTurnCount = r.isTurnCount := by
  obtain ⟨-, h⟩ := check_bind_eq_ok_iff.mp h
  cases r with
  | participant name attr comparator value =>
    split at h
    · rename_i hread
      obtain rfl := Except.ok.inj h
      exact yields_isTurnCount_participant hread
    · -- a count of turns has no participant among its keys
      obtain ⟨hkeys, -⟩ := check_bind_eq_ok_iff.mp h
      cases require_eq_ok_iff.mp hkeys
  | turnCount comparator count =>
    split at h
    · rename_i hread
      exact absurd hread participantOfJson_turnCount
    · obtain ⟨-, h⟩ := check_bind_eq_ok_iff.mp h
      obtain ⟨-, h⟩ := Reading.seqRight_eq_ok_iff.mp (Reading.toExcept_eq_ok_iff.mp h)
      obtain ⟨_, h₁, count', -, rfl⟩ := Reading.seq_eq_ok_iff.mp h
      obtain ⟨comparator', -, rfl⟩ := Reading.map_eq_ok_iff.mp h₁
      rfl

/-- Events are written if there are any. -/
theorem mem_keys_toJson_iff {d : Document} : "events" ∈ d.toJson.keys ↔ d.events ≠ [] := by
  cases hevents : d.events with
  | nil => simp [toJson, keys, hevents]
  | cons r rows => simp [toJson, keys, hevents]

/-! ## Texts -/

/-- A whole number below the bound is written as an integer, which is read back. -/
theorem read_toJson_of_toInt? {x : Number} {i : Int} (h : x.toInt? = some i)
    (hlt : i.natAbs < 9 * tenTo 15) :
    x.toJson = .integer i ∧ Json.ofText? (Json.integer i).pretty = some (.integer i) ∧
      (Json.integer i).asNumber = .ok x.plain ∧ (x.plain == x) = true := by
  have hsize : i.natAbs < UInt64.size := Number.lt_size_of_lt hlt
  refine ⟨?_, ofText?_pretty (.integer hsize),
    asNumber_of_number? (Number.number?_integer h hsize),
    Number.plain_beq (Number.toInt?_eq_some h).1⟩
  rw [Number.toJson, h]
  exact if_pos hlt

/-- **Nothing is lost.** The text of a document of finite numbers is read back as the same document,
if the fractions are read back. In particular a whole number below nine times ten to the fifteenth
comes back from an integer, amounts and end conditions keep their forms, and events that were not
written come back as none. -/
theorem lossless {d : Document} (hfinite : ∀ x ∈ d.numbers, x.isFinite = true)
    (hreads : ∀ x ∈ d.numbers, x.ReadsBack) :
    (∃ d', ofText d.print = .ok d' ∧ d' = d.mapNumbers Number.plain ∧ (d' == d) = true) ∧
      (∀ (x : Number) (i : Int), x.toInt? = some i → i.natAbs < 9 * tenTo 15 →
        x.toJson = .integer i ∧ Json.ofText? (Json.integer i).pretty = some (.integer i) ∧
          (Json.integer i).asNumber = .ok x.plain ∧ (x.plain == x) = true) ∧
      (∀ r r' : AmountRow, AmountRow.ofJson r.toJson = .ok r' → r'.isDrawn = r.isDrawn) ∧
      (∀ r r' : EndingRow, EndingRow.ofJson r.toJson = .ok r' → r'.isTurnCount = r.isTurnCount) ∧
      ("events" ∈ d.toJson.keys ↔ d.events ≠ []) :=
  ⟨⟨d.mapNumbers Number.plain, ofText_print fun x hx ↦ (hreads x hx).isKept (hfinite x hx), rfl,
      beq_mapNumbers fun x hx ↦ Number.plain_beq (hfinite x hx)⟩,
    fun _ _ ↦ read_toJson_of_toInt?, fun _ _ ↦ AmountRow.isDrawn_of_read,
    fun _ _ ↦ EndingRow.isTurnCount_of_read, mem_keys_toJson_iff⟩

/-- A fair with a fraction and a negative zero. One amount is drawn and the other is not, and one
event ends by a participant and the other by its turns. -/
def fair : Document where
  name := "fair"
  attributes := [⟨"coins", "num"⟩, ⟨"mood", "text"⟩]
  actions := [⟨"bet", [⟨"coins", "self", "-",
      .drawn ⟨"coins", "self", "*", Number.ofMagnitudeBits false 0x3FD0000000000000,
        some ⟨"+", .ofInt 1⟩⟩,
      some ⟨"coins", "self", ">", .number (.ofMagnitudeBits true 0)⟩⟩,
    ⟨"mood", "st", "=", .literal (.text "\"calm\""), none⟩]⟩, ⟨"rest", []⟩]
  entities := [⟨"Ann", [⟨"coins", "num", .number (.ofInt 8999999999999999)⟩], ["bet"]⟩,
    ⟨"Bob", [], []⟩]
  events := [⟨"night", ["Ann"], [.say "Ann" "All in!", .act "Ann" "bet" []],
      .participant "Ann" "coins" "==" (.number (.ofInt 0))⟩, ⟨"day", [], [], .turnCount ">" 0⟩]

theorem lossless_fair : ∃ d', ofText fair.print = .ok d' ∧ (d' == fair) = true ∧
    "events" ∈ fair.toJson.keys := by
  have hall : ∀ x ∈ fair.numbers,
      (∃ i ∈ x.toInt?, i.natAbs < 9 * tenTo 15) ∨ x.document.scaled? = some x := by
    decide +kernel
  have hreads : ∀ x ∈ fair.numbers, x.ReadsBack := fun x hx hwritten ↦ by
    refine (hall x hx).resolve_left fun ⟨i, hi, hlt⟩ ↦ ?_
    -- it is written as an integer
    rw [(read_toJson_of_toInt? hi hlt).1] at hwritten
    cases hwritten
  obtain ⟨⟨d', hd', -, hsame⟩, -, -, -, hkeys⟩ := lossless (d := fair) (by decide +kernel) hreads
  exact ⟨d', hd', hsame, hkeys.mpr (List.cons_ne_nil _ _)⟩

end Document

end Tabletop
