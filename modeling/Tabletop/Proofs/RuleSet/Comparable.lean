import Tabletop.Proofs.RuleSet.Finite
import Tabletop.Proofs.RuleSet.Names
import Tabletop.Proofs.RuleSet.Typed

/-!
# Comparisons that cannot be made

Only numbers have an order. A comparison has two sides, and one of them is declared: a condition or
an end condition that asks for an order on a declared text is refused when it is defined. The other
side is what an entity holds, and that goes by the kind of its attribute. The check looks the
attribute up and does not ask for its kind, as it does when an effect calculates. So an order on an
attribute that holds texts gets in, and then it cannot be told of any entity, be it in an action or
at the end of an event (`comparison_party`).

That is all that can go wrong with a comparison, next to names that are not there
(`comparison_fails_iff`). Attributes have to keep their names and what they accept for that, since
nothing is checked again when they change.
-/

namespace Tabletop

/-! ## Single comparisons -/

/-- How a comparison of what an entity holds under an attribute can fail. -/
inductive RuleSet.Uncomparable (w : RuleSet) (m : Entity) (attr : String) (c : Comparator) :
    RuleError → Prop where
  /-- The entity holds nothing there. -/
  | missing :
    m.value? attr = none → Uncomparable w m attr c (.unknownAttribute attr (.entity m.name))
  /-- An order is asked for, and the attribute holds no numbers. -/
  | unordered {v : Value} {a : AttributeDef} :
    m.value? attr = some v → c.isOrdering = true → w.attributes.get? attr = some a →
      a.kind.isNumeric = false →
      Uncomparable w m attr c (.typeMismatch (.comparison c v.shape .number))

/-- Whether an order that is asked for is one to a number. -/
def EndCondition.Orderable : EndCondition → Prop
  | turnCount _ _ => True
  | participant _ _ comparator value => comparator.isOrdering = true → value.shape = .number

/-- **When a checked comparison fails.** The declared side is a number where an order is asked for,
and what a typed entity holds is one exactly when its attribute holds numbers. -/
theorem Entity.Typed.holds_eq_error_iff {w : RuleSet} {m : Entity} {c : Condition} {err : RuleError}
    (h : m.Typed w) (hc : c.comparator.isOrdering = true → c.value.shape = .number) :
    c.holds m = .error err ↔ w.Uncomparable m c.attr c.comparator err := by
  rw [Condition.holds_eq_error_iff]
  constructor
  · rintro (⟨hnone, rfl⟩ | ⟨v, hv, hcompare⟩)
    · exact .missing hnone
    · obtain ⟨hordering, hshapes, rfl⟩ := Comparator.compare_eq_error_iff.mp hcompare
      obtain ⟨a, ha, haccepts, -⟩ := h.value? hv
      have hshape := hc hordering
      have hkind : a.kind.isNumeric = false := by
        refine eq_false_of_ne_true fun hnumeric ↦ ?_
        exact hshapes ((Kind.isNumeric_iff_of_accepts haccepts).mp hnumeric) hshape
      rw [hshape]
      exact .unordered hv hordering ha hkind
  · rintro (hnone | ⟨hv, hordering, ha, hkind⟩)
    · exact .inl ⟨hnone, rfl⟩
    · obtain ⟨a', ha', haccepts, -⟩ := h.value? hv
      obtain rfl := Option.some.inj (ha.symm.trans ha')
      refine .inr ⟨_, hv, Comparator.compare_eq_error_iff.mpr ⟨hordering, fun hv' ↦ ?_, ?_⟩⟩
      · have hnumeric := (Kind.isNumeric_iff_of_accepts haccepts).mpr hv'
        exact absurd (hkind.symm.trans hnumeric) Bool.false_ne_true
      · rw [hc hordering]

namespace RuleSet

variable {w : RuleSet}

/-! ## What definitions let in -/

theorem orderable_of_checkCondition {c : Condition} (h : w.checkCondition c = .ok ()) :
    c.comparator.isOrdering = true → c.value.shape = .number :=
  Comparator.ensureOrderable_eq_ok_iff.mp (checkCondition_eq_ok_iff.mp h).2

theorem orderable_of_checkEffect {f : Effect} (h : w.checkEffect f = .ok ()) :
    ∀ c ∈ f.condition, c.comparator.isOrdering = true → c.value.shape = .number := by
  obtain ⟨-, -, -, -, hcondition⟩ := checkEffect_eq_ok_iff.mp h
  exact fun c hc ↦ orderable_of_checkCondition (hcondition c hc)

theorem orderable_of_checkEvent {participants : List String} {script : List Turn}
    {ending : EndCondition} (h : w.checkEvent participants script ending = .ok ()) :
    ending.Orderable := by
  obtain ⟨-, -, hending⟩ := checkEvent_eq_ok_iff.mp h
  rw [checkEnding_eq_ok_iff] at hending
  cases ending with
  | turnCount comparator count => trivial
  | participant name attr comparator value =>
    obtain ⟨-, -, -, horderable⟩ := hending
    exact Comparator.ensureOrderable_eq_ok_iff.mp horderable

/-- Whatever asks for an order to something else is refused. -/
theorem orderable_of_succeeds {op : Op} (h : op.Succeeds w) :
    (∀ f ∈ op.effects, ∀ c ∈ f.condition,
        c.comparator.isOrdering = true → c.value.shape = .number) ∧
      ∀ ending ∈ op.endings, ending.Orderable := by
  obtain ⟨answer, hanswer⟩ := h
  have hok : w.perform op.edit = (.ok answer, w.after op) := Prod.ext hanswer rfl
  have hnone {α : Type} {P : α → Prop} : ∀ a ∈ ([] : List α), P a := List.forall_mem_nil P
  cases op with
  | defineAction name effects =>
    obtain ⟨-, hcheck, -⟩ := perform_defineAction_eq_ok_iff.mp hok
    have heffects := (checkEffects_eq_ok_iff.mp hcheck).2
    exact ⟨fun f hf ↦ orderable_of_checkEffect (heffects f hf), hnone⟩
  | modifyAction name newName? newEffects? =>
    obtain ⟨-, -, -, hcheck, -⟩ := perform_modifyAction_eq_ok_iff.mp hok
    refine ⟨?_, hnone⟩
    cases newEffects? with
    | none => exact hnone
    | some effects =>
      have heffects := (checkEffects_eq_ok_iff.mp (hcheck effects rfl)).2
      exact fun f hf ↦ orderable_of_checkEffect (heffects f hf)
  | defineEvent name participants script ending =>
    obtain ⟨-, hcheck, -⟩ := perform_defineEvent_eq_ok_iff.mp hok
    refine ⟨hnone, fun e he ↦ ?_⟩
    rw [List.mem_singleton.mp he]
    exact orderable_of_checkEvent hcheck
  | _ => exact ⟨hnone, hnone⟩

/-- **Every run.** Whatever operations led to a rule set, no event waits for an order to something
else than a number. -/
theorem Reachable.orderable (h : w.Reachable) : ∀ e ∈ w.events.rows, e.ending.Orderable := by
  induction h with
  | empty name => exact fun e he ↦ absurd he List.not_mem_nil
  | after op _ ih =>
    refine (step_after _ op).forall_events ih (fun e e' hreset he' ↦ ?_)
      fun _ _ ↦ orderable_of_checkEvent
    rw [(Event.reset_eq_reset_iff.mp hreset).2.2.2]
    exact he'

theorem Steady.reachable (h : w.Steady) : w.Reachable := by
  induction h with
  | empty name => exact .empty name
  | after op _ _ ih => exact .after op ih

/-! ## What is left to go wrong -/

/-- **When a comparison fails.** While attributes keep their names and what they accept, a condition
of an action, looked at in an entity, and the end condition of an event fail for want of a name, or
because an order is asked for on an attribute that holds no numbers. They always fail then. What
definitions do see to is that an order is one to a number. -/
theorem comparison_fails_iff (h : w.Steady) :
    (∀ a ∈ w.actions.rows, ∀ f ∈ a.effects, ∀ c ∈ f.condition, ∀ m ∈ w.entities.rows, ∀ err,
        c.holds m = .error err ↔ w.Uncomparable m c.attr c.comparator err) ∧
      (∀ e ∈ w.events.rows, ∀ err, w.endConditionMet e = .error err ↔
        ∃ name attr comparator value, e.ending = .participant name attr comparator value ∧
          (w.entities.get? name = none ∧ err = .unknownEntity name ∨
            ∃ m, w.entities.get? name = some m ∧ w.Uncomparable m attr comparator err)) ∧
      ∀ op : Op, op.Succeeds w →
        (∀ f ∈ op.effects, ∀ c ∈ f.condition,
          c.comparator.isOrdering = true → c.value.shape = .number) ∧
        ∀ ending ∈ op.endings, ending.Orderable := by
  have htyped := h.typed
  refine ⟨fun a ha f hf c hc m hm err ↦ ?_, fun e he err ↦ ?_, fun _ ↦ orderable_of_succeeds⟩
  · have horderable := orderable_of_checkEffect (htyped.effects a ha f hf) c hc
    exact (htyped.entities m hm).holds_eq_error_iff horderable
  · have horderable := h.reachable.orderable e he
    rw [endConditionMet_eq_error_iff]
    refine exists_congr fun name ↦ exists_congr fun attr ↦ exists_congr fun comparator ↦
      exists_congr fun value ↦ and_congr_right fun hending ↦ or_congr_right ?_
    rw [hending] at horderable
    refine exists_congr fun m ↦ and_congr_right fun hm ↦ ?_
    exact (htyped.entities m (Table.get?_eq_some hm).1).holds_eq_error_iff horderable

/-- A party that goes on until Ann's mood is above five, and moods are texts. How old she is can be
compared. -/
def party : RuleSet :=
  [.defineAttribute "mood" .text, .defineAttribute "age" .number,
    .defineAction "cheer" [⟨"mood", .user, .assign, .literal (.text "glad"),
      some ⟨"mood", .user, .gt, .number (.ofInt 5)⟩⟩],
    .defineAction "toast" [⟨"mood", .user, .assign, .literal (.text "tipsy"),
      some ⟨"age", .user, .ge, .number (.ofInt 18)⟩⟩],
    .defineEntity "Ann" [⟨"mood", .text, .text "calm"⟩, ⟨"age", .number, .number (.ofInt 30)⟩]
      ["cheer", "toast"],
    .defineEvent "evening" ["Ann"] [] (.participant "Ann" "mood" .gt (.number (.ofInt 5)))].foldl
    after (.empty "party")

/-- Ann at the party. -/
def guest : Entity :=
  ⟨"Ann", [⟨"mood", .text, .text "calm"⟩, ⟨"age", .number, .number (.ofInt 30)⟩],
    ["cheer", "toast"]⟩

theorem steady_party : party.Steady :=
  .after _ (.after _ (.after _ (.after _ (.after _ (.after _
    (.empty "party") trivial) trivial) trivial) trivial) trivial) trivial

theorem comparison_fails_iff_party :
    party.Steady ∧
      Condition.holds ⟨"mood", .user, .gt, .number (.ofInt 5)⟩ guest =
        .error (.typeMismatch (.comparison .gt .text .number)) ∧
      ∀ err, Condition.holds ⟨"age", .user, .ge, .number (.ofInt 18)⟩ guest ≠ .error err := by
  have hguest : guest ∈ party.entities.rows := by decide +kernel
  have hcheer : ⟨"cheer", [⟨"mood", .user, .assign, .literal (.text "glad"),
      some ⟨"mood", .user, .gt, .number (.ofInt 5)⟩⟩]⟩ ∈ party.actions.rows := by decide +kernel
  have htoast : ⟨"toast", [⟨"mood", .user, .assign, .literal (.text "tipsy"),
      some ⟨"age", .user, .ge, .number (.ofInt 18)⟩⟩]⟩ ∈ party.actions.rows := by decide +kernel
  have hmood : party.attributes.get? "mood" = some ⟨"mood", .text⟩ := by decide +kernel
  have hage : party.attributes.get? "age" = some ⟨"age", .number⟩ := by decide +kernel
  obtain ⟨hcondition, -, -⟩ := comparison_fails_iff steady_party
  refine ⟨steady_party, ?_, fun err herr ↦ ?_⟩
  · have hunordered : party.Uncomparable guest "mood" .gt _ := .unordered rfl rfl hmood rfl
    exact (hcondition _ hcheer _ (List.mem_singleton_self _) _ rfl _ hguest _).mpr hunordered
  · have hfails :=
      (hcondition _ htoast _ (List.mem_singleton_self _) _ rfl _ hguest err).mp herr
    obtain hnone | ⟨-, -, ha, hkind⟩ := hfails
    · exact absurd hnone (by decide +kernel)
    · -- ages are numbers
      obtain rfl := Option.some.inj (ha.symm.trans hage)
      exact Bool.false_ne_true hkind.symm

/-- The party is put together from definitions that all succeed, and nothing is taken out or changed
afterwards. Still Ann's mood cannot be compared, neither when she cheers nor to end the evening,
although she has one. -/
theorem comparison_party :
    party.Steady ∧
      party.actions.get? "cheer" = some ⟨"cheer", [⟨"mood", .user, .assign,
        .literal (.text "glad"), some ⟨"mood", .user, .gt, .number (.ofInt 5)⟩⟩]⟩ ∧
      party.entities.get? "Ann" = some guest ∧ guest.value? "mood" = some (.text "calm") ∧
      Condition.holds ⟨"mood", .user, .gt, .number (.ofInt 5)⟩ guest =
        .error (.typeMismatch (.comparison .gt .text .number)) ∧
      (party.events.get? "evening").map Event.ending =
        some (.participant "Ann" "mood" .gt (.number (.ofInt 5))) ∧
      (party.events.get? "evening").map party.endConditionMet =
        some (.error (.typeMismatch (.comparison .gt .text .number))) := by
  refine ⟨steady_party, ?_, ?_, ?_, ?_, ?_, ?_⟩ <;> decide +kernel

end RuleSet

end Tabletop
